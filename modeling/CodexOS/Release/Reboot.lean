import CodexOS.Release.TrustChain

/-! # Booting twice

A boot writes the floor, the trust root and the boot records, and the next boot
reads them back. It finds the same release again unless the first one replaced
the trust root by a key that does not vouch for it: `RebootSafe` says exactly
when a boot can be repeated.
-/

namespace CodexOS.Release

open Bytes Effect

def SameRelease (a b : KernelImageInfo) : Prop :=
  a.releaseVersion = b.releaseVersion ∧ a.kernelSha256 = b.kernelSha256

section

variable (platform : Platform) (files : Volume)

/-- An accepted release outlives its own change of the trust root: it makes none, or the new root
    vouches for it too, or for the same release in the other slot. -/
def Lasts (slot : SystemSlot) (root : TrustRoot) (manifest : UpdateManifest) : Prop :=
  nextTrustRoot platform manifest root = some none ∨
  (∃ image, slotRelease platform files (successor manifest) slot = some (manifest, image)) ∨
  ∃ manifest' image', slotRelease platform files (successor manifest) slot.other =
      some (manifest', image') ∧
    nextTrustRoot platform manifest' (successor manifest) ≠ none ∧
    manifest'.releaseVersion = manifest.releaseVersion ∧
    manifest'.kernelSha256 = manifest.kernelSha256

/-- The variables admit the release of `image` in this slot. -/
def Holds (nvram : Nvram) (slot : SystemSlot) (image : KernelImageInfo) : Prop :=
  ∃ root manifest image' floor, Admitted platform files nvram slot root manifest image' floor ∧
    nextTrustRoot platform manifest root ≠ none ∧ SameRelease image' image

/-- The variables as an examination of the slot leaves them. -/
def leftBy (nvram : Nvram) (slot : SystemSlot) : Nvram :=
  (examine platform files nvram slot).2

/-- A boot that succeeds can be repeated. -/
def RebootSafe (nvram : Nvram) : Prop :=
  match newestRecord files with
  | some state =>
    (¬Refused platform files nvram state.activeSlot (some state.activeReleaseVersion) →
      ∀ root manifest image floor,
        Admitted platform files nvram state.activeSlot root manifest image floor →
        Lasts platform files state.activeSlot root manifest) ∧
    (Refused platform files nvram state.activeSlot (some state.activeReleaseVersion) →
      ∀ root manifest image floor,
        Admitted platform files (leftBy platform files nvram state.activeSlot)
          state.activeSlot.other root manifest image floor →
        if state.generation.toNat + 1 ≥ 2 ^ 64 then
          -- no record of the fallback: the next boot starts with the active slot again
          let left := leftBy platform files (leftBy platform files nvram state.activeSlot)
            state.activeSlot.other
          (¬Refused platform files left state.activeSlot (some state.activeReleaseVersion) →
            Holds platform files left state.activeSlot image) ∧
          (Refused platform files left state.activeSlot (some state.activeReleaseVersion) →
            Holds platform files (leftBy platform files left state.activeSlot)
              state.activeSlot.other image)
        else Lasts platform files state.activeSlot.other root manifest)
  | none =>
    ∀ slot image,
      newerImage (examine platform files nvram .A).1
          (examine platform files (leftBy platform files nvram .A) .B).1 = some (slot, image) →
      let left := leftBy platform files (leftBy platform files nvram .A) .B
      Holds platform files left slot image ∨ Holds platform files left slot.other image

end

section

variable {platform : Platform} {files : Volume} {nvram : Nvram} {state : BootState}

theorem examine_set_record (record : file = .bootState0 ∨ file = .bootState1) (bytes : Bytes)
    (slot : SystemSlot) :
    examine platform (files.set file bytes) nvram slot = examine platform files nvram slot := by
  refine examine_congr (Function.update_of_ne ?_ _ _) (Function.update_of_ne ?_ _ _)
  all_goals obtain rfl | rfl := record <;> simp

theorem bootStateFile_cases (generation : UInt64) :
    bootStateFile generation = .bootState0 ∨ bootStateFile generation = .bootState1 := by
  unfold bootStateFile
  split
  · exact .inl rfl
  · exact .inr rfl

theorem newerBootState_none (candidate : Option BootState) :
    newerBootState none candidate = candidate := by
  cases candidate <;> rfl

theorem newerBootState_ge (newest : newerBootState selected candidate = some state) :
    (∀ record, selected = some record → record.generation ≤ state.generation) ∧
      ∀ record, candidate = some record → record.generation ≤ state.generation := by
  unfold newerBootState at newest
  split at newest
  · subst newest
    exact ⟨fun record same => by cases same; exact UInt64.le_refl _, nofun⟩
  · cases newest
    exact ⟨nofun, fun record same => by cases same; exact UInt64.le_refl _⟩
  · rename_i current candidate
    split at newest
    · rename_i greater
      cases newest
      exact ⟨fun record same => by cases same; exact UInt64.le_of_lt greater,
        fun record same => by cases same; exact UInt64.le_refl _⟩
    · rename_i notGreater
      cases newest
      exact ⟨fun record same => by cases same; exact UInt64.le_refl _,
        fun record same => by cases same; exact UInt64.not_lt.mp notGreater⟩

theorem newestRecord_ge (newest : newestRecord files = some state)
    (isRecord : file = .bootState0 ∨ file = .bootState1) (found : recordIn files file = some record) :
    record.generation ≤ state.generation := by
  rw [newestRecord, newerBootState_none] at newest
  obtain ⟨first, second⟩ := newerBootState_ge newest
  obtain rfl | rfl := isRecord
  · exact first record found
  · exact second record found

theorem recordIn_set_self (readBack : BootState.decode record.encode = .ok record) :
    recordIn (files.set file record.encode) file = some record := by
  simp [recordIn, Volume.set, readBack, Except.toOption]

theorem recordIn_set_ne (different : other ≠ file) (bytes : Bytes) :
    recordIn (files.set file bytes) other = recordIn files other := by
  simp [recordIn, Volume.set, different]

theorem newestRecord_set (isRecord : file = .bootState0 ∨ file = .bootState1)
    (readBack : BootState.decode record.encode = .ok record)
    (newer : ∀ other held, other = .bootState0 ∨ other = .bootState1 →
      recordIn files other = some held → held.generation < record.generation) :
    newestRecord (files.set file record.encode) = some record := by
  have written : recordIn (files.set file record.encode) file = some record :=
    recordIn_set_self readBack
  unfold newestRecord
  obtain rfl | rfl := isRecord
  · rw [written, recordIn_set_ne (by simp)]
    cases kept : recordIn files .bootState1 with
    | none => rfl
    | some held =>
      have less := newer _ held (.inr rfl) kept
      simp [newerBootState, UInt64.not_lt.mpr (UInt64.le_of_lt less)]
  · rw [written, recordIn_set_ne (by simp)]
    cases kept : recordIn files .bootState0 with
    | none => rfl
    | some held =>
      have less := newer _ held (.inl rfl) kept
      simp [newerBootState, less]

theorem lt_generation_succ (room : ¬state.generation.toNat + 1 ≥ 2 ^ 64) :
    state.generation < state.generation + 1 := by
  rw [UInt64.lt_iff_toNat_lt, UInt64.toNat_add, UInt64.toNat_one]
  omega

theorem newestRecord_next (newest : newestRecord files = some state)
    (room : ¬state.generation.toNat + 1 ≥ 2 ^ 64) (release : version ≠ 0) (slot : SystemSlot) :
    newestRecord (files.set (bootStateFile (state.generation + 1))
        (BootState.encode ⟨state.generation + 1, slot, version⟩)) =
      some ⟨state.generation + 1, slot, version⟩ := by
  refine newestRecord_set (bootStateFile_cases _) (decode_record slot (succ_ne_zero room) release) ?_
  intro other held isRecord found
  exact UInt64.lt_of_le_of_lt (newestRecord_ge newest isRecord found) (lt_generation_succ room)

end

section

variable {platform : Platform} {files : Volume} {nvram nvram' : Nvram} {slot : SystemSlot}
  {root : TrustRoot} {manifest : UpdateManifest} {image image' : KernelImageInfo} {floor : UInt64}

section

variable (h : Admitted platform files nvram slot root manifest image floor)

include h

theorem Admitted.kernelSha256 : image.kernelSha256 = manifest.kernelSha256 := by
  obtain ⟨_, -, -, staged⟩ := slotRelease_eq_some.mp h.release
  exact (stagedImage_fields staged).2.1

theorem Admitted.sameRelease_iff
    (h' : Admitted platform files nvram' slot' root' manifest' image' floor') :
    SameRelease image' image ↔ manifest'.releaseVersion = manifest.releaseVersion ∧
      manifest'.kernelSha256 = manifest.kernelSha256 := by
  rw [SameRelease, h.releaseVersion, h'.releaseVersion, h.kernelSha256, h'.kernelSha256]

theorem Admitted.manifest_eq
    (h' : Admitted platform files nvram' slot root' manifest' image' floor') :
    manifest' = manifest := by
  obtain ⟨kernel, encoded, hk, hm, hd⟩ := h.exists_files
  exact (h'.of_files hk hm hd).1

end

/-- Whether a next key is well formed does not depend on the root it would replace. -/
theorem nextTrustRoot_ne_none (h : nextTrustRoot platform manifest root ≠ none)
    (root' : TrustRoot) : nextTrustRoot platform manifest root' ≠ none := by
  unfold nextTrustRoot at h ⊢
  split
  · simp
  split
  · rename_i present malformed
    exact absurd (by rw [if_neg present, if_pos malformed]) h
  split
  · rename_i present valid wrong
    exact absurd (by rw [if_neg present, if_neg valid, if_pos wrong]) h
  split <;> simp

theorem holds_iff :
    Holds platform files nvram slot image ↔
      ∃ image', (examine platform files nvram slot).1 = some image' ∧ SameRelease image' image := by
  constructor
  · rintro ⟨root, manifest, image', floor, admitted, well, same⟩
    obtain ⟨next, well⟩ := Option.ne_none_iff_exists'.mp well
    exact ⟨image', by rw [examine_of_next_some admitted well], same⟩
  · rintro ⟨image', accepted, same⟩
    obtain ⟨root, manifest, floor, next, admitted, well, -⟩ :=
      of_examine_some (Prod.ext accepted rfl : examine platform files nvram slot = (some image', _))
    exact ⟨root, manifest, image', floor, admitted, by simp [well], same⟩

/-- A slot once accepted is later accepted with the same release, or left alone. -/
theorem examine_again (accepted : (examine platform files nvram slot).1 = some image)
    (nvram' : Nvram) :
    examine platform files nvram' slot = (none, nvram') ∨
      ∃ image', (examine platform files nvram' slot).1 = some image' ∧ SameRelease image' image := by
  obtain ⟨root, manifest, floor, next, admitted, well, -⟩ :=
    of_examine_some (Prod.ext accepted rfl : examine platform files nvram slot = (some image, _))
  obtain ⟨root', manifest', image', floor', admitted'⟩ | examined :=
    admitted_or_not platform files nvram' slot
  · obtain rfl := admitted.manifest_eq admitted'
    have formed : nextTrustRoot platform manifest' root ≠ none := by simp [well]
    obtain ⟨next', well'⟩ := Option.ne_none_iff_exists'.mp (nextTrustRoot_ne_none formed root')
    exact .inr ⟨image', by rw [examine_of_next_some admitted' well'], (admitted.sameRelease_iff admitted').mpr ⟨rfl, rfl⟩⟩
  · exact .inl examined

/-- Booting again with a record of what was booted: the slot itself, or the other one. -/
theorem boot_again_iff (recorded : newestRecord files = some state)
    (accepted : (examine platform files nvram state.activeSlot).1 = some image)
    (version : state.activeReleaseVersion = image.releaseVersion) (nvram' : Nvram) :
    (∃ booted, (boot platform files nvram').image = some booted ∧ SameRelease booted image) ↔
      Holds platform files nvram' state.activeSlot image ∨
        Holds platform files nvram' state.activeSlot.other image := by
  simp only [holds_iff]
  obtain examined | ⟨again, found, same⟩ := examine_again accepted nvram'
  · have refused : Refused platform files nvram' state.activeSlot (some state.activeReleaseVersion) := by
      simp [Refused, examined]
    rw [boot_of_refused recorded refused, examined]
    cases other : (examine platform files nvram' state.activeSlot.other).1 with
    | none =>
      rw [failOver_none (Prod.ext other rfl)]
      simp
    | some fallback =>
      obtain ⟨booted, boots, ⟨_, _, _, rfl⟩, -⟩ := failOver_booted other
      simp only [boots, Option.some.injEq, exists_eq_left', reduceCtorEq, false_and, exists_false,
        false_or]
      exact Iff.rfl
  · have booted := boot_of_active recorded
      (Prod.ext found rfl : examine platform files nvram' state.activeSlot = (some again, _))
      (same.1.trans version.symm)
    exact iff_of_true ⟨_, congrArg BootResult.image booted, same⟩ (.inl ⟨again, found, same⟩)

/-- What a release leaves in the variables admits it again exactly if it lasts. -/
theorem holds_iff_lasts (admitted : Admitted platform files nvram slot root manifest image floor)
    (well : nextTrustRoot platform manifest root = some next) :
    (Holds platform files (adoptRoot (raiseFloor nvram floor manifest.releaseVersion) next) slot image ∨
      Holds platform files (adoptRoot (raiseFloor nvram floor manifest.releaseVersion) next)
        slot.other image) ↔
      Lasts platform files slot root manifest := by
  have formed : nextTrustRoot platform manifest root ≠ none := by simp [well]
  have raised := releaseFloor_raiseFloor admitted.known admitted.atLeast
  have active : trustRootOf platform (raiseFloor nvram floor manifest.releaseVersion) = some root :=
    (trustRootOf_raiseFloor _ _).trans admitted.active
  have level : ¬manifest.releaseVersion < manifest.releaseVersion := UInt64.lt_irrefl _
  cases next with
  | none =>
    have again : Admitted platform files (raiseFloor nvram floor manifest.releaseVersion) slot root
        manifest image manifest.releaseVersion := ⟨active, admitted.release, raised, level⟩
    exact iff_of_true (.inl ⟨root, manifest, image, _, again, formed, rfl, rfl⟩) (.inl well)
  | some state =>
    have replaced := trustRootOf_set_trustRoot admitted.wellFormed active well
    have floor' : releaseFloor ((raiseFloor nvram floor manifest.releaseVersion).set .trustRoot
        state.encode) = some manifest.releaseVersion := (releaseFloor_set_trustRoot _).trans raised
    constructor
    · rintro (⟨root', manifest', image', floor'', h, formed', same⟩ |
        ⟨root', manifest', image', floor'', h, formed', same⟩)
      · cases replaced.symm.trans h.active
        obtain rfl := admitted.manifest_eq h
        exact .inr (.inl ⟨image', h.release⟩)
      · cases replaced.symm.trans h.active
        exact .inr (.inr ⟨manifest', image', h.release, formed', (admitted.sameRelease_iff h).mp same⟩)
    · rintro (keeps | ⟨image', release⟩ | ⟨manifest', image', release, formed', same⟩)
      · cases well.symm.trans keeps
      · have again : Admitted platform files _ slot _ manifest image' manifest.releaseVersion :=
          ⟨replaced, release, floor', level⟩
        exact .inl ⟨_, manifest, image', _, again, nextTrustRoot_ne_none formed _,
          (admitted.sameRelease_iff again).mpr ⟨rfl, rfl⟩⟩
      · have again : Admitted platform files _ slot.other _ manifest' image' manifest.releaseVersion :=
          ⟨replaced, release, floor', by rw [same.1]; exact level⟩
        exact .inr ⟨_, manifest', image', _, again, formed', (admitted.sameRelease_iff again).mpr same⟩

theorem Admitted.unique (h : Admitted platform files nvram slot root manifest image floor)
    (h' : Admitted platform files nvram slot root' manifest' image' floor') :
    root' = root ∧ manifest' = manifest ∧ image' = image := by
  cases h.active.symm.trans h'.active
  cases h.release.symm.trans h'.release
  exact ⟨rfl, rfl, rfl⟩

theorem Admitted.forall_iff {post : TrustRoot → UpdateManifest → KernelImageInfo → Prop}
    (h : Admitted platform files nvram slot root manifest image floor) :
    (∀ root manifest image floor, Admitted platform files nvram slot root manifest image floor →
      post root manifest image) ↔ post root manifest image := by
  refine ⟨fun all => all _ _ _ _ h, fun holds root' manifest' image' floor' h' => ?_⟩
  obtain ⟨rfl, rfl, rfl⟩ := h.unique h'
  exact holds

/-- Booting again returns the release of `image`. -/
def Repeats (platform : Platform) (files : Volume) (nvram : Nvram) (image : KernelImageInfo) : Prop :=
  ∃ booted, (boot platform files nvram).image = some booted ∧ SameRelease booted image

theorem exists_of_not_refused (h : ¬Refused platform files nvram slot (some required)) :
    ∃ image, (examine platform files nvram slot).1 = some image ∧ image.releaseVersion = required := by
  simpa [Refused] using h

theorem repeats_active (recorded : newestRecord files = some state)
    (used : ¬Refused platform files nvram state.activeSlot (some state.activeReleaseVersion))
    (booted : (boot platform files nvram).image = some image) :
    Repeats platform (boot platform files nvram).files (boot platform files nvram).nvram image ↔
      ∀ root manifest image floor,
        Admitted platform files nvram state.activeSlot root manifest image floor →
        Lasts platform files state.activeSlot root manifest := by
  obtain ⟨base, accepted, version⟩ := exists_of_not_refused used
  obtain ⟨root, manifest, floor, next, admitted, well, left⟩ := of_examine_some
    (Prod.ext accepted rfl : examine platform files nvram state.activeSlot = (some base, _))
  have boots := boot_of_active recorded
    (Prod.ext accepted rfl : examine platform files nvram state.activeSlot = (some base, _)) version
  rw [boots] at booted ⊢
  cases booted
  rw [left]
  rw [admitted.forall_iff]
  exact (boot_again_iff recorded accepted version.symm _).trans (holds_iff_lasts admitted well)

theorem accepted_of_failOver (booted : (failOver platform files nvram state).image = some image) :
    ∃ base left, examine platform files nvram state.activeSlot.other = (some base, left) ∧
      (failOver platform files nvram state).nvram = left ∧ BootedAs image base := by
  cases accepted : (examine platform files nvram state.activeSlot.other).1 with
  | none =>
    rw [failOver_none (Prod.ext accepted rfl)] at booted
    cases booted
  | some base =>
    obtain ⟨left, examined⟩ : ∃ left, examine platform files nvram state.activeSlot.other =
        (some base, left) := ⟨_, Prod.ext accepted rfl⟩
    refine ⟨base, left, examined, ?_⟩
    simp only [failOver, examined] at booted ⊢
    split at booted
    · rename_i exhausted
      cases booted
      rw [if_pos exhausted]
      exact ⟨rfl, _, _, _, rfl⟩
    · rename_i room
      cases booted
      rw [if_neg room]
      exact ⟨rfl, _, _, _, rfl⟩

theorem newestRecord_failOver (recorded : newestRecord files = some state)
    (room : ¬state.generation.toNat + 1 ≥ 2 ^ 64)
    (examined : examine platform files nvram state.activeSlot.other = (some base, left)) :
    newestRecord (failOver platform files nvram state).files =
      some
        { generation := state.generation + 1
          activeSlot := state.activeSlot.other
          activeReleaseVersion := base.releaseVersion } := by
  simp only [failOver, examined, if_neg room]
  exact newestRecord_next recorded room (releaseVersion_ne_zero examined) _

theorem examine_failOver (state : BootState) (nvram' : Nvram) (slot : SystemSlot) :
    examine platform (failOver platform files nvram state).files nvram' slot =
      examine platform files nvram' slot := by
  unfold failOver
  dsimp only
  split
  · rfl
  · split
    · rfl
    · exact examine_set_record (bootStateFile_cases _) _ slot

section

variable (recorded : newestRecord files = some state)

include recorded

theorem repeats_fallback (room : ¬state.generation.toNat + 1 ≥ 2 ^ 64)
    (booted : (failOver platform files nvram state).image = some image) :
    Repeats platform (failOver platform files nvram state).files
        (failOver platform files nvram state).nvram image ↔
      ∀ root manifest image floor,
        Admitted platform files nvram state.activeSlot.other root manifest image floor →
        Lasts platform files state.activeSlot.other root manifest := by
  obtain ⟨base, left, examined, after, ⟨_, _, _, rfl⟩⟩ := accepted_of_failOver booted
  obtain ⟨root, manifest, floor, next, admitted, well, rfl⟩ := of_examine_some examined
  have newest := newestRecord_failOver recorded room examined
  have accepted : (examine platform (failOver platform files nvram state).files nvram
      state.activeSlot.other).1 = some base := by rw [examine_failOver, examined]
  rw [after, admitted.forall_iff]
  refine (boot_again_iff newest accepted rfl _).trans ?_
  simp only [holds_iff, examine_failOver]
  simp only [← holds_iff]
  exact holds_iff_lasts admitted well

/-- The recorded slot, tried again at other variables, or the other one after it. -/
theorem repeats_unrecorded (nvram : Nvram) (image : KernelImageInfo) :
    Repeats platform files nvram image ↔
      (¬Refused platform files nvram state.activeSlot (some state.activeReleaseVersion) →
        Holds platform files nvram state.activeSlot image) ∧
      (Refused platform files nvram state.activeSlot (some state.activeReleaseVersion) →
        Holds platform files (leftBy platform files nvram state.activeSlot) state.activeSlot.other
          image) := by
  simp only [holds_iff, Repeats]
  by_cases refused : Refused platform files nvram state.activeSlot (some state.activeReleaseVersion)
  · have boots : boot platform files nvram =
        failOver platform files (leftBy platform files nvram state.activeSlot) state :=
      boot_of_refused recorded refused
    simp only [refused, not_true_eq_false, false_implies, true_and, forall_const, boots]
    constructor
    · rintro ⟨booted, found, same⟩
      obtain ⟨base, left, examined, -, ⟨_, _, _, rfl⟩⟩ := accepted_of_failOver found
      exact ⟨base, by rw [examined], same⟩
    · rintro ⟨base, accepted, same⟩
      obtain ⟨booted, found, ⟨_, _, _, rfl⟩, -⟩ := failOver_booted accepted
      exact ⟨_, found, same⟩
  · obtain ⟨base, accepted, version⟩ := exists_of_not_refused refused
    have boots := boot_of_active recorded
      (Prod.ext accepted rfl : examine platform files nvram state.activeSlot = (some base, _)) version
    simp only [refused, not_false_eq_true, forall_const, false_implies, and_true, boots, accepted,
      Option.some.injEq, exists_eq_left']
    exact Iff.rfl

theorem repeats_exhausted (exhausted : state.generation.toNat + 1 ≥ 2 ^ 64)
    (booted : (failOver platform files nvram state).image = some image) :
    Repeats platform (failOver platform files nvram state).files
        (failOver platform files nvram state).nvram image ↔
      ∀ root manifest image floor,
        Admitted platform files nvram state.activeSlot.other root manifest image floor →
        (¬Refused platform files (leftBy platform files nvram state.activeSlot.other)
            state.activeSlot (some state.activeReleaseVersion) →
          Holds platform files (leftBy platform files nvram state.activeSlot.other)
            state.activeSlot image) ∧
        (Refused platform files (leftBy platform files nvram state.activeSlot.other)
            state.activeSlot (some state.activeReleaseVersion) →
          Holds platform files
            (leftBy platform files (leftBy platform files nvram state.activeSlot.other)
              state.activeSlot)
            state.activeSlot.other image) := by
  obtain ⟨base, left, examined, after, ⟨_, _, _, rfl⟩⟩ := accepted_of_failOver booted
  obtain ⟨root, manifest, floor, next, admitted, -, -⟩ := of_examine_some examined
  have same : (failOver platform files nvram state).files = files := by
    simp only [failOver, examined, if_pos exhausted]
  have leaves : leftBy platform files nvram state.activeSlot.other = left := by
    rw [leftBy, examined]
  rw [same, after, leaves, admitted.forall_iff]
  exact repeats_unrecorded recorded left _

end

/-- Both records name the slot with the version. -/
def repaired (files : Volume) (slot : SystemSlot) (version : UInt64) : Volume :=
  (files.set .bootState0 (BootState.encode
      { generation := 1, activeSlot := slot, activeReleaseVersion := version })).set .bootState1
    (BootState.encode { generation := 2, activeSlot := slot, activeReleaseVersion := version })

theorem newestRecord_repaired (slot : SystemSlot) (release : version ≠ 0) :
    newestRecord (repaired files slot version) =
      some { generation := 2, activeSlot := slot, activeReleaseVersion := version } := by
  have first : recordIn (repaired files slot version) .bootState0 = _ :=
    (recordIn_set_ne (by simp) _).trans (recordIn_set_self (decode_record slot (by decide) release))
  have second : recordIn (repaired files slot version) .bootState1 = _ :=
    recordIn_set_self (decode_record slot (by decide) release)
  rw [newestRecord, first, second]
  rfl

theorem examine_repaired (slot' : SystemSlot) (version : UInt64) :
    examine platform (repaired files slot' version) nvram slot =
      examine platform files nvram slot :=
  (examine_set_record (.inr rfl) _ slot).trans (examine_set_record (.inl rfl) _ slot)

/-- What is chosen of the two slots when there is no record. -/
abbrev chosenImage (platform : Platform) (files : Volume) (nvram : Nvram) :
    Option (SystemSlot × KernelImageInfo) :=
  newerImage (examine platform files nvram .A).1
    (examine platform files (leftBy platform files nvram .A) .B).1

theorem scan_of_none (chosen : chosenImage platform files nvram = none) :
    (scan platform files nvram).image = none := by
  unfold chosenImage leftBy at chosen
  simp only [scan, chosen]

theorem scan_of_some (chosen : chosenImage platform files nvram = some (slot, image)) :
    scan platform files nvram =
      { image := some { image with
          systemSlot := slot.asU8
          recoveryFallback := 1
          bootStateGeneration := 2 }
        files := repaired files slot image.releaseVersion
        nvram := leftBy platform files (leftBy platform files nvram .A) .B } := by
  unfold chosenImage leftBy at chosen
  simp only [scan, chosen]
  rfl

theorem accepted_of_scan (chosen : chosenImage platform files nvram = some (slot, image)) :
    ∃ before, (examine platform files before slot).1 = some image := by
  obtain ⟨rfl, accepted⟩ | ⟨rfl, accepted⟩ := newerImage_cases chosen
  · exact ⟨nvram, accepted⟩
  · exact ⟨leftBy platform files nvram .A, accepted⟩

theorem repeats_scan (missing : newestRecord files = none)
    (booted : (boot platform files nvram).image = some image) :
    Repeats platform (boot platform files nvram).files (boot platform files nvram).nvram image ↔
      ∀ slot image, chosenImage platform files nvram = some (slot, image) →
        Holds platform files (leftBy platform files (leftBy platform files nvram .A) .B) slot image ∨
          Holds platform files (leftBy platform files (leftBy platform files nvram .A) .B) slot.other
            image := by
  have boots : boot platform files nvram = scan platform files nvram := by simp only [boot, missing]
  rw [boots] at booted ⊢
  cases chosen : chosenImage platform files nvram with
  | none =>
    rw [scan_of_none chosen] at booted
    cases booted
  | some pair =>
    obtain ⟨slot, base⟩ := pair
    obtain ⟨before, accepted⟩ := accepted_of_scan chosen
    have release : base.releaseVersion ≠ 0 :=
      releaseVersion_ne_zero (Prod.ext accepted rfl : examine platform files before slot = (_, _))
    rw [scan_of_some chosen] at booted ⊢
    cases booted
    refine (boot_again_iff (newestRecord_repaired slot release)
      (by rw [examine_repaired]; exact accepted) rfl _).trans ?_
    simp only [holds_iff, examine_repaired]
    simp only [Option.some.injEq, Prod.mk.injEq]
    constructor
    · rintro holds _ _ ⟨rfl, rfl⟩
      exact holds
    · exact fun all => all slot base ⟨rfl, rfl⟩

/-- A boot that succeeds finds the same release again exactly when `RebootSafe` holds. -/
theorem repeats_iff (booted : (boot platform files nvram).image = some image) :
    Repeats platform (boot platform files nvram).files (boot platform files nvram).nvram image ↔
      RebootSafe platform files nvram := by
  unfold RebootSafe
  cases recorded : newestRecord files with
  | none => exact repeats_scan recorded booted
  | some state =>
    by_cases refused : Refused platform files nvram state.activeSlot
        (some state.activeReleaseVersion)
    · have boots : boot platform files nvram =
          failOver platform files (leftBy platform files nvram state.activeSlot) state :=
        boot_of_refused recorded refused
      rw [boots] at booted ⊢
      simp only [refused, not_true_eq_false, false_implies, true_and, forall_const]
      by_cases exhausted : state.generation.toNat + 1 ≥ 2 ^ 64
      · simp only [if_pos exhausted]
        exact repeats_exhausted recorded exhausted booted
      · simp only [if_neg exhausted]
        exact repeats_fallback recorded exhausted booted
    · simp only [refused, not_false_eq_true, forall_const, false_implies, and_true]
      exact repeats_active recorded refused booted

end

end CodexOS.Release
