import CodexOS.Release.TrustChain

/-! # What a rejected slot leaves behind

A slot is rejected when its examination fails, or when the boot record names
another release. The examination raises the floor and replaces the trust root
before the last of these checks is made, so a rejected slot may leave its mark;
`RejectionsHarmless` says exactly when it does not.
-/

namespace CodexOS.Release

open Bytes Effect Relation

section

variable (platform : Platform)

/-- The slot is not used: its examination fails, or it holds another release than required. -/
def Rejected (slot : SystemSlot) (s : Firmware) (required : Option UInt64) : Prop :=
  ∀ image, outcome (loadSystemSlot platform slot) s = .ok image →
    ∃ version, required = some version ∧ image.releaseVersion ≠ version

/-- The attempts of `loadKernelImage` at a slot: the slot, the firmware as the attempt finds it,
    and the release the boot record requires of it. -/
inductive Attempted (platform : Platform) (start : Firmware) :
    SystemSlot → Firmware → Option UInt64 → Prop where
  | active {state : BootState} {s : Firmware}
      (record : loadBootState.run { start with calls := start.calls + 1 } = .ok state s) :
      Attempted platform start state.activeSlot s (some state.activeReleaseVersion)
  | fallback {state : BootState} {s : Firmware}
      (record : loadBootState.run { start with calls := start.calls + 1 } = .ok state s)
      (rejected : Rejected platform state.activeSlot s (some state.activeReleaseVersion)) :
      Attempted platform start state.activeSlot.other
        (after (loadSystemSlot platform state.activeSlot) s) none
  | scanA {s : Firmware}
      (missing : loadBootState.run { start with calls := start.calls + 1 } =
        .error .bootStateUnavailable s) :
      Attempted platform start .A s none
  | scanB {s : Firmware}
      (missing : loadBootState.run { start with calls := start.calls + 1 } =
        .error .bootStateUnavailable s) :
      Attempted platform start .B (after (loadSystemSlot platform .A) s) none

/-- In a boot from `start` with every call served, a rejected slot leaves the variables as they
    were, and the other slot is booted if on its own it would be used. -/
structure RejectionIsolated (platform : Platform) (files : Volume) (nvram : Nvram) : Prop where
  unchanged : ∀ slot s required,
    Attempted platform (powerOn files nvram fun _ => .none) slot s required →
    Rejected platform slot s required → (after (loadSystemSlot platform slot) s).nvram = s.nvram
  other : ∀ slot s required image,
    Attempted platform (powerOn files nvram fun _ => .none) slot s required →
    Rejected platform slot s required →
    outcome (loadSystemSlot platform slot.other) (powerOn files nvram fun _ => .none) = .ok image →
    (∀ state, newestRecord files = some state → state.activeSlot = slot.other →
      image.releaseVersion = state.activeReleaseVersion) →
    ∃ booted, outcome (loadKernelImage platform) (powerOn files nvram fun _ => .none) = .ok booted ∧
      BootedAs booted image ∧ booted.systemSlot = slot.other.asU8

/-- If the slot is admitted but rejected afterwards, it is at the floor and brings no new root. -/
def Harmless (files : Volume) (nvram : Nvram) (slot : SystemSlot) (required : Option UInt64) :
    Prop :=
  ∀ root manifest image floor, Admitted platform files nvram slot root manifest image floor →
    (nextTrustRoot platform manifest root = none ∨
      ∃ version, required = some version ∧ manifest.releaseVersion ≠ version) →
    manifest.releaseVersion = floor ∧
      ∀ state, nextTrustRoot platform manifest root ≠ some (some state)

/-- The slot is accepted with the release required of it, and `nvram'` is what it leaves. -/
def Accepts (files : Volume) (nvram : Nvram) (slot : SystemSlot) (required : Option UInt64)
    (nvram' : Nvram) : Prop :=
  ∃ root manifest image floor next, Admitted platform files nvram slot root manifest image floor ∧
    nextTrustRoot platform manifest root = some next ∧
    (∀ version, required = some version → manifest.releaseVersion = version) ∧
    nvram' = adoptRoot (raiseFloor nvram floor manifest.releaseVersion) next

/-- Every slot a boot would reject is harmless. -/
def RejectionsHarmless (files : Volume) (nvram : Nvram) : Prop :=
  match newestRecord files with
  | some state =>
    Harmless platform files nvram state.activeSlot (some state.activeReleaseVersion) ∧
    ((∀ nvram', ¬Accepts platform files nvram state.activeSlot
        (some state.activeReleaseVersion) nvram') →
      Harmless platform files nvram state.activeSlot.other none)
  | none =>
    Harmless platform files nvram .A none ∧
    (∀ nvram', Accepts platform files nvram .A none nvram' →
      Harmless platform files nvram' .B none) ∧
    ((∀ nvram', ¬Accepts platform files nvram .A none nvram') →
      Harmless platform files nvram .B none)

end

section

variable {platform : Platform} {files : Volume} {faults : Nat → Fault} {nvram : Nvram}
  {slot : SystemSlot} {required : Option UInt64}

/-- Accepting a release changes nothing only at the floor and without a new root. -/
theorem of_adoptRoot_eq (admitted : Admitted platform files nvram slot root manifest image floor)
    (well : nextTrustRoot platform manifest root = some next)
    (same : adoptRoot (raiseFloor nvram floor manifest.releaseVersion) next = nvram) :
    manifest.releaseVersion = floor ∧ next = none := by
  have raised := releaseFloor_raiseFloor admitted.known admitted.atLeast
  cases next with
  | none =>
    change raiseFloor nvram floor manifest.releaseVersion = nvram at same
    rw [same, admitted.known] at raised
    exact ⟨(Option.some.inj raised).symm, rfl⟩
  | some state =>
    -- a replaced root would have to equal the root it replaces
    have active : trustRootOf platform (raiseFloor nvram floor manifest.releaseVersion) = some root :=
      (trustRootOf_raiseFloor _ _).trans admitted.active
    have replaced := trustRootOf_set_trustRoot admitted.wellFormed active well
    change (raiseFloor nvram floor manifest.releaseVersion).set .trustRoot state.encode = nvram
      at same
    rw [same, admitted.active] at replaced
    have different := (nextTrustRoot_eq_some well).2.2.2.1
    cases Option.some.inj replaced
    exact absurd rfl different

/-- A slot leaves no mark when refused exactly if it is harmless. -/
theorem unchanged_iff_harmless :
    (Refused platform files nvram slot required → (examine platform files nvram slot).2 = nvram) ↔
      Harmless platform files nvram slot required := by
  constructor
  · intro unchanged root manifest image floor admitted rejected
    cases well : nextTrustRoot platform manifest root with
    | none =>
      have examined := examine_of_next_none admitted well
      have same := unchanged (by simp [Refused, examined])
      rw [examined] at same
      have raised := releaseFloor_raiseFloor admitted.known admitted.atLeast
      change raiseFloor nvram floor manifest.releaseVersion = nvram at same
      rw [same, admitted.known] at raised
      exact ⟨(Option.some.inj raised).symm, nofun⟩
    | some next =>
      obtain malformed | ⟨version, needs, differs⟩ := rejected
      · cases malformed.symm.trans well
      have examined := examine_of_next_some admitted well
      have same := unchanged (by
        intro accepted h
        rw [examined] at h
        cases h
        exact ⟨version, needs, admitted.releaseVersion ▸ differs⟩)
      rw [examined] at same
      obtain ⟨level, rfl⟩ := of_adoptRoot_eq admitted well same
      exact ⟨level, nofun⟩
  · intro harmless refused
    obtain ⟨root, manifest, image, floor, admitted⟩ | examined :=
      admitted_or_not platform files nvram slot
    · cases well : nextTrustRoot platform manifest root with
      | none =>
        obtain ⟨level, -⟩ := harmless root manifest image floor admitted (.inl well)
        rw [examine_of_next_none admitted well, level]
        exact raiseFloor_self floor
      | some next =>
        have examined := examine_of_next_some admitted well
        obtain ⟨version, needs, differs⟩ := refused image (by rw [examined])
        obtain ⟨level, keeps⟩ := harmless root manifest image floor admitted
          (.inr ⟨version, needs, admitted.releaseVersion ▸ differs⟩)
        rw [examined, level]
        cases next with
        | none => exact raiseFloor_self floor
        | some state => exact absurd well (keeps state)
    · rw [examined]

theorem refused_or_accepts (platform : Platform) (files : Volume) (nvram : Nvram)
    (slot : SystemSlot) (required : Option UInt64) :
    Refused platform files nvram slot required ∧
        (∀ nvram', ¬Accepts platform files nvram slot required nvram') ∨
      ¬Refused platform files nvram slot required ∧
        Accepts platform files nvram slot required (examine platform files nvram slot).2 := by
  by_cases refused : Refused platform files nvram slot required
  · refine .inl ⟨refused, ?_⟩
    rintro nvram' ⟨root, manifest, image, floor, next, admitted, well, fits, -⟩
    obtain ⟨version, needs, differs⟩ := refused image (by rw [examine_of_next_some admitted well])
    exact differs (admitted.releaseVersion.trans (fits version needs))
  · refine .inr ⟨refused, ?_⟩
    obtain ⟨image, examined, fits⟩ : ∃ image, (examine platform files nvram slot).1 = some image ∧
        ∀ version, required = some version → image.releaseVersion = version := by
      simpa [Refused] using refused
    obtain ⟨root, manifest, floor, next, admitted, well, left⟩ := of_examine_some
      (show examine platform files nvram slot = (some image, _) from Prod.ext examined rfl)
    exact ⟨root, manifest, image, floor, next, admitted, well,
      fun version needs => admitted.releaseVersion.symm.trans (fits version needs), left⟩

theorem accepts_unique (h : Accepts platform files nvram slot required nvram') :
    (examine platform files nvram slot).2 = nvram' := by
  obtain ⟨root, manifest, image, floor, next, admitted, well, -, rfl⟩ := h
  rw [examine_of_next_some admitted well]

theorem rejected_iff (served : Served faults) (h : At files faults nvram s) :
    Rejected platform slot s required ↔ Refused platform files nvram slot required := by
  simp only [Rejected, Refused, outcome_loadSystemSlot served h]

theorem unchanged_at (served : Served faults) (h : At files faults nvram s) :
    (Rejected platform slot s required →
        (after (loadSystemSlot platform slot) s).nvram = s.nvram) ↔
      (Refused platform files nvram slot required →
        (examine platform files nvram slot).2 = nvram) := by
  rw [rejected_iff served h, (loadSystemSlot_at served h).2.nvram, h.nvram]

end

section

variable {platform : Platform} {files : Volume} {nvram : Nvram}

theorem loadBootState_powerOn (files : Volume) (nvram : Nvram) :
    ∃ s, loadBootState.run { powerOn files nvram (fun _ => .none) with calls := 1 } =
        (newestRecord files).elim (.error .bootStateUnavailable s) (.ok · s) ∧
      At files (fun _ => .none) nvram s := by
  have spec : Spec (At files (fun _ => .none) nvram) loadBootState _ _ :=
    loadBootState_served fun _ => rfl
  have run := spec { powerOn files nvram (fun _ => .none) with calls := 1 } ⟨rfl, rfl, rfl⟩
  cases result : loadBootState.run { powerOn files nvram (fun _ => .none) with calls := 1 } with
  | ok found s =>
    rw [result] at run
    exact ⟨s, by rw [run.2]; rfl, run.1⟩
  | error e s =>
    rw [result] at run
    exact ⟨s, by rw [run.2.1, run.2.2]; rfl, run.1⟩

theorem attempted_recorded (recorded : newestRecord files = some state)
    (h : Attempted platform (powerOn files nvram fun _ => .none) slot s required) :
    (slot = state.activeSlot ∧ required = some state.activeReleaseVersion ∧
        At files (fun _ => .none) nvram s) ∨
      (slot = state.activeSlot.other ∧ required = none ∧
        Refused platform files nvram state.activeSlot (some state.activeReleaseVersion) ∧
        At files (fun _ => .none) (examine platform files nvram state.activeSlot).2 s) := by
  have served : Served fun _ => .none := fun _ => rfl
  obtain ⟨found, run, holds⟩ := loadBootState_powerOn files nvram
  rw [recorded, Option.elim_some] at run
  cases h with
  | active record =>
    cases run.symm.trans record
    exact .inl ⟨rfl, rfl, holds⟩
  | fallback record rejected =>
    cases run.symm.trans record
    exact .inr ⟨rfl, rfl, (rejected_iff served holds).mp rejected, (loadSystemSlot_at served holds).2⟩
  | scanA missing => cases run.symm.trans missing
  | scanB missing => cases run.symm.trans missing

theorem attempted_missing (missing : newestRecord files = none)
    (h : Attempted platform (powerOn files nvram fun _ => .none) slot s required) :
    required = none ∧
      (slot = .A ∧ At files (fun _ => .none) nvram s ∨
        slot = .B ∧ At files (fun _ => .none) (examine platform files nvram .A).2 s) := by
  have served : Served fun _ => .none := fun _ => rfl
  obtain ⟨found, run, holds⟩ := loadBootState_powerOn files nvram
  rw [missing, Option.elim_none] at run
  cases h with
  | active record => cases run.symm.trans record
  | fallback record rejected => cases run.symm.trans record
  | scanA missing =>
    cases run.symm.trans missing
    exact ⟨rfl, .inl ⟨rfl, holds⟩⟩
  | scanB missing =>
    cases run.symm.trans missing
    exact ⟨rfl, .inr ⟨rfl, (loadSystemSlot_at served holds).2⟩⟩

/-- The rejected attempts of a boot leave the variables alone. -/
def LeavesNoMark (platform : Platform) (files : Volume) (nvram : Nvram) : Prop :=
  match newestRecord files with
  | some state =>
    let afterActive := (examine platform files nvram state.activeSlot).2
    (Refused platform files nvram state.activeSlot (some state.activeReleaseVersion) →
      afterActive = nvram) ∧
    (Refused platform files nvram state.activeSlot (some state.activeReleaseVersion) →
      Refused platform files afterActive state.activeSlot.other none →
      (examine platform files afterActive state.activeSlot.other).2 = afterActive)
  | none =>
    let afterA := (examine platform files nvram .A).2
    (Refused platform files nvram .A none → afterA = nvram) ∧
    (Refused platform files afterA .B none → (examine platform files afterA .B).2 = afterA)

theorem leavesNoMark_iff :
    LeavesNoMark platform files nvram ↔ RejectionsHarmless platform files nvram := by
  unfold LeavesNoMark RejectionsHarmless
  cases newestRecord files with
  | some state =>
    dsimp only
    rw [unchanged_iff_harmless]
    refine and_congr_right fun harmless => ?_
    obtain ⟨refused, never⟩ | ⟨used, accepts⟩ :=
      refused_or_accepts platform files nvram state.activeSlot (some state.activeReleaseVersion)
    · rw [unchanged_iff_harmless.mpr harmless refused]
      simp only [refused, never, not_false_eq_true, implies_true, forall_const]
      exact unchanged_iff_harmless
    · exact iff_of_true (fun refused => absurd refused used) fun never => absurd accepts (never _)
  | none =>
    dsimp only
    rw [unchanged_iff_harmless, unchanged_iff_harmless]
    refine and_congr_right fun harmless => ?_
    obtain ⟨refused, never⟩ | ⟨used, accepts⟩ := refused_or_accepts platform files nvram .A none
    · rw [unchanged_iff_harmless.mpr harmless refused]
      exact ⟨fun h => ⟨fun nvram' accepts => absurd accepts (never nvram'), fun _ => h⟩,
        fun h => h.2 never⟩
    · exact ⟨fun h => ⟨fun nvram' accepts => accepts_unique accepts ▸ h,
        fun never => absurd accepts (never _)⟩, fun h => h.1 _ accepts⟩

theorem unchanged_iff_leavesNoMark :
    (∀ slot s required, Attempted platform (powerOn files nvram fun _ => .none) slot s required →
        Rejected platform slot s required →
        (after (loadSystemSlot platform slot) s).nvram = s.nvram) ↔
      LeavesNoMark platform files nvram := by
  have served : Served fun _ => .none := fun _ => rfl
  unfold LeavesNoMark
  cases recorded : newestRecord files with
  | some state =>
    obtain ⟨s, run, holds⟩ := loadBootState_powerOn files nvram
    rw [recorded, Option.elim_some] at run
    have holds' : At files (fun _ => .none) (examine platform files nvram state.activeSlot).2
        (after (loadSystemSlot platform state.activeSlot) s) := (loadSystemSlot_at served holds).2
    constructor
    · intro unchanged
      refine ⟨(unchanged_at served holds).mp (unchanged _ _ _ (.active run)), fun refused => ?_⟩
      exact (unchanged_at served holds').mp
        (unchanged _ _ _ (.fallback run ((rejected_iff served holds).mpr refused)))
    · rintro ⟨first, second⟩ slot s required attempted rejected
      obtain ⟨rfl, rfl, holds⟩ | ⟨rfl, rfl, refused, holds⟩ := attempted_recorded recorded attempted
      · exact (unchanged_at served holds).mpr first rejected
      · exact (unchanged_at served holds).mpr (second refused) rejected
  | none =>
    obtain ⟨s, run, holds⟩ := loadBootState_powerOn files nvram
    rw [recorded, Option.elim_none] at run
    have holds' : At files (fun _ => .none) (examine platform files nvram .A).2
        (after (loadSystemSlot platform .A) s) := (loadSystemSlot_at served holds).2
    constructor
    · intro unchanged
      exact ⟨(unchanged_at served holds).mp (unchanged _ _ _ (.scanA run)),
        (unchanged_at served holds').mp (unchanged _ _ _ (.scanB run))⟩
    · rintro ⟨first, second⟩ slot s required attempted rejected
      obtain ⟨rfl, ⟨rfl, holds⟩ | ⟨rfl, holds⟩⟩ := attempted_missing recorded attempted
      · exact (unchanged_at served holds).mpr first rejected
      · exact (unchanged_at served holds).mpr second rejected

theorem other_booted (noMark : LeavesNoMark platform files nvram)
    (attempted : Attempted platform (powerOn files nvram fun _ => .none) slot s required)
    (rejected : Rejected platform slot s required)
    (passes : (examine platform files nvram slot.other).1 = some image)
    (fits : ∀ state, newestRecord files = some state → state.activeSlot = slot.other →
      image.releaseVersion = state.activeReleaseVersion) :
    ∃ booted, (boot platform files nvram).image = some booted ∧ BootedAs booted image ∧
      booted.systemSlot = slot.other.asU8 := by
  have served : Served fun _ => .none := fun _ => rfl
  unfold LeavesNoMark at noMark
  cases recorded : newestRecord files with
  | some state =>
    rw [recorded] at noMark
    obtain ⟨rfl, rfl, holds⟩ | ⟨rfl, rfl, refused, holds⟩ := attempted_recorded recorded attempted
    · have refused := (rejected_iff served holds).mp rejected
      rw [boot_of_refused recorded refused, noMark.1 refused]
      exact failOver_booted passes
    · -- the other slot is then the active one, which has the recorded release: not refused
      rw [SystemSlot.other_other] at passes fits
      obtain ⟨version, same, differs⟩ := refused image passes
      cases same
      exact absurd (fits state recorded rfl) differs
  | none =>
    rw [recorded] at noMark
    obtain ⟨rfl, ⟨rfl, holds⟩ | ⟨rfl, holds⟩⟩ := attempted_missing recorded attempted
    · have refused := (rejected_iff served holds).mp rejected
      have none := eq_none_of_refused refused
      refine boot_of_scan recorded ?_
      rw [noMark.1 refused, none, show (examine platform files nvram .B).1 = some image from passes]
      rfl
    · have none := eq_none_of_refused ((rejected_iff served holds).mp rejected)
      refine boot_of_scan recorded ?_
      rw [none, show (examine platform files nvram .A).1 = some image from passes]
      rfl

end

end CodexOS.Release
