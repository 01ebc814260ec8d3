import CodexOS.Release.Boot

/-! # Anti-rollback and the chain of trust

The volume is in an adversary's hands between boots and every firmware call may
fail, but the variables are written by the loader alone. A boot then moves them
along `TrustStep`s only: the release floor is raised, or the trust root is
replaced by the next key of a manifest that verified under the root it replaces.
-/

namespace CodexOS.Release

open Bytes Effect Relation

/-- The trust root a manifest's next key stands for. -/
def successor (manifest : UpdateManifest) : TrustRoot :=
  { publicKey := manifest.nextTrustPublicKey
    keyId := manifest.nextTrustKeyId
    source := .persisted
    activationReleaseVersion := manifest.releaseVersion }

/-- One write of the loader to its variables. -/
inductive TrustStep (platform : Platform) (files : Volume) : Nvram → Nvram → Prop where
  | raise {nvram : Nvram} {floor version : UInt64} (known : releaseFloor nvram = some floor)
      (above : floor < version) :
      TrustStep platform files nvram (nvram.set .highestRelease (le 8 version.toNat))
  | rotate {nvram : Nvram} {slot : SystemSlot} {kernel : Bytes} {manifest : UpdateManifest}
      {root : TrustRoot} {state : TrustRootState}
      (found : slotFiles files slot = some (kernel, manifest))
      (active : trustRootOf platform nvram = some root)
      (verified : Verified platform kernel manifest root)
      (carried : manifest.hasNextTrustKey = true)
      (replaced : trustRootOf platform (nvram.set .trustRoot state.encode) =
        some (successor manifest)) :
      TrustStep platform files nvram (nvram.set .trustRoot state.encode)

/-- What the loader's writes can lead to. -/
abbrev TrustPath (platform : Platform) (files : Volume) : Nvram → Nvram → Prop :=
  ReflTransGen (TrustStep platform files)

/-- A floor once set is never lost or lowered. -/
def FloorLe (before after : Nvram) : Prop :=
  ∀ floor, releaseFloor before = some floor → ∃ raised, releaseFloor after = some raised ∧ floor ≤ raised

section

variable {platform : Platform} {files : Volume} {nvram nvram' : Nvram} {slot : SystemSlot}
  {root : TrustRoot} {manifest : UpdateManifest} {image : KernelImageInfo} {floor : UInt64}

@[simp] theorem trustRootOf_set_highestRelease (bytes : Bytes) :
    trustRootOf platform (nvram.set .highestRelease bytes) = trustRootOf platform nvram := by
  simp [trustRootOf, Nvram.read, Nvram.set, Nvram.get]

@[simp] theorem releaseFloor_set_trustRoot (bytes : Bytes) :
    releaseFloor (nvram.set .trustRoot bytes) = releaseFloor nvram := by
  simp [releaseFloor, Nvram.read, Nvram.set, Nvram.get]

@[simp] theorem releaseFloor_set_highestRelease (version : UInt64) :
    releaseFloor (nvram.set .highestRelease (le 8 version.toNat)) = some version := by
  have back : leNat (le 8 version.toNat) = version.toNat := leNat_le_of_lt version.toNat_lt
  simp [releaseFloor, Nvram.read, Nvram.set, Nvram.get, back]

theorem trustRootOf_raiseFloor (floor candidate : UInt64) :
    trustRootOf platform (raiseFloor nvram floor candidate) = trustRootOf platform nvram := by
  unfold raiseFloor
  split
  · exact trustRootOf_set_highestRelease _
  · rfl

/-- The floor after an admitted release: the release itself, or the floor it equalled. -/
theorem releaseFloor_raiseFloor (known : releaseFloor nvram = some floor)
    (atLeast : ¬candidate < floor) :
    releaseFloor (raiseFloor nvram floor candidate) = some candidate := by
  unfold raiseFloor
  split
  · exact releaseFloor_set_highestRelease candidate
  · rename_i level
    rw [known, UInt64.le_antisymm (UInt64.not_lt.mp level) (UInt64.not_lt.mp atLeast)]

/-- A persisted next key is what the loader trusts from then on. -/
theorem trustRootOf_set_trustRoot (wellFormed : manifest.WellFormed)
    (active : trustRootOf platform nvram = some root)
    (next : nextTrustRoot platform manifest root = some (some state)) :
    trustRootOf platform (nvram.set .trustRoot state.encode) = some (successor manifest) := by
  have readBack := decode_nextTrustRoot wellFormed next
  obtain ⟨-, valid, sameId, -, rfl⟩ := nextTrustRoot_eq_some next
  unfold trustRootOf at active ⊢
  cases embedded : embeddedTrustedPublicKey platform with
  | none => simp [embedded] at active
  | some key =>
    rw [sameId] at readBack ⊢
    rw [read_set_trustRoot]
    simp [readBack, valid, sameId, trustRootStateBytes, successor]

theorem Admitted.raise_path (h : Admitted platform files nvram slot root manifest image floor) :
    TrustPath platform files nvram (raiseFloor nvram floor manifest.releaseVersion) := by
  unfold raiseFloor
  split
  · exact .single (.raise h.known ‹_›)
  · exact .refl

theorem Residue.path (h : Residue platform files nvram slot nvram') :
    TrustPath platform files nvram nvram' := by
  cases h with
  | untouched => exact .refl
  | raised admitted => exact admitted.raise_path
  | @adopted root manifest image floor state admitted next =>
    obtain ⟨kernel, found, verified, -⟩ := slotRelease_eq_some.mp admitted.release
    have active : trustRootOf platform (raiseFloor nvram floor manifest.releaseVersion) = some root :=
      (trustRootOf_raiseFloor _ _).trans admitted.active
    exact admitted.raise_path.tail (.rotate found active verified (nextTrustRoot_eq_some next).1
      (trustRootOf_set_trustRoot admitted.wellFormed active next))

theorem residue_examine : Residue platform files nvram slot (examine platform files nvram slot).2 := by
  obtain ⟨root, manifest, image, floor, admitted⟩ | untouched :=
    admitted_or_not platform files nvram slot
  · cases well : nextTrustRoot platform manifest root with
    | none => exact (examine_of_next_none admitted well) ▸ .raised admitted
    | some next =>
      rw [examine_of_next_some admitted well]
      cases next with
      | none => exact .raised admitted
      | some state => exact .adopted admitted well
  · rw [untouched]
    exact .untouched

theorem FloorLe.trans (h : FloorLe first second) (h' : FloorLe second third) :
    FloorLe first third := by
  intro floor known
  obtain ⟨middle, known, le⟩ := h floor known
  obtain ⟨last, known, le'⟩ := h' middle known
  exact ⟨last, known, UInt64.le_trans le le'⟩

theorem TrustStep.floorLe (h : TrustStep platform files nvram nvram') : FloorLe nvram nvram' := by
  intro floor known
  cases h with
  | @raise held version known' above =>
    cases known.symm.trans known'
    exact ⟨version, releaseFloor_set_highestRelease version, UInt64.le_of_lt above⟩
  | rotate => exact ⟨floor, by rwa [releaseFloor_set_trustRoot], UInt64.le_refl floor⟩

theorem TrustPath.floorLe (h : TrustPath platform files nvram nvram') : FloorLe nvram nvram' := by
  induction h with
  | refl => exact fun floor known => ⟨floor, known, UInt64.le_refl floor⟩
  | tail _ step ih => exact ih.trans step.floorLe

/-- An accepted release lies between the floor before and the floor after. -/
theorem floor_of_examine (h : examine platform files nvram slot = (some image, nvram')) :
    ∃ root kernel manifest, slotFiles files slot = some (kernel, manifest) ∧
      trustRootOf platform nvram = some root ∧ Verified platform kernel manifest root ∧
      stagedImage platform kernel manifest = some image ∧
      (∀ floor, releaseFloor nvram = some floor → floor ≤ manifest.releaseVersion) ∧
      releaseFloor nvram' = some manifest.releaseVersion := by
  obtain ⟨root, manifest, floor, next, admitted, -, rfl⟩ := of_examine_some h
  obtain ⟨kernel, found, verified, staged⟩ := slotRelease_eq_some.mp admitted.release
  refine ⟨root, kernel, manifest, found, admitted.active, verified, staged, ?_, ?_⟩
  · intro known same
    cases admitted.known.symm.trans same
    exact UInt64.not_lt.mp admitted.atLeast
  · have raised := releaseFloor_raiseFloor admitted.known admitted.atLeast
    cases next with
    | none => exact raised
    | some state => exact (releaseFloor_set_trustRoot _).trans raised

end

/-- Some slot was examined and accepted on the way from `before` to `after`. -/
def Booted (platform : Platform) (files : Volume) (before after : Nvram) (image : KernelImageInfo) :
    Prop :=
  ∃ slot checked passed base, TrustPath platform files before checked ∧
    examine platform files checked slot = (some base, passed) ∧
    TrustPath platform files passed after ∧ BootedAs image base

section

variable {platform : Platform} {files : Volume} {faults : Nat → Fault} {nvram : Nvram}

theorem readBootState_spec (file : BootFile) :
    Spec (At files faults nvram) (readBootState file) (fun _ s => At files faults nvram s) fail := by
  refine Spec.bind (readFile_spec file) fun bytes => Spec.assume fun _ => ?_
  cases bytes with
  | none => exact Spec.pure _ fun s h => h
  | some bytes => exact Spec.pure _ fun s h => h

theorem loadBootState_spec :
    Spec (At files faults nvram) loadBootState (fun _ s => At files faults nvram s)
      (fun _ s => At files faults nvram s) := by
  refine Spec.bind (readBootState_spec _) fun first => ?_
  refine Spec.bind (readBootState_spec _) fun second => ?_
  cases newerBootState (newerBootState none first) second with
  | none => exact Spec.throw _ fun s h => h
  | some state => exact Spec.pure _ fun s h => h

theorem writeVerifiedBootState_spec (file : BootFile) (state : BootState) :
    Spec (fun s => s.nvram = nvram) (writeVerifiedBootState file state) (fun _ s => s.nvram = nvram)
      (fun _ s => s.nvram = nvram) := by
  have write : Spec (fun s => s.nvram = nvram) (writeFile file state.encode)
      (fun _ s => s.nvram = nvram) (fun _ s => s.nvram = nvram) := by
    intro s h
    rw [run_writeFile]
    exact h
  have read : Spec (fun s => s.nvram = nvram) (readFile file) (fun _ s => s.nvram = nvram)
      (fun _ s => s.nvram = nvram) := by
    intro s h
    rw [run_readFile]
    exact h
  unfold writeVerifiedBootState
  refine Spec.bind write fun written => ?_
  refine Spec.ite (fun _ => Spec.throw_bind _ fun s h => h) fun _ => ?_
  refine Spec.bind read fun bytes => ?_
  cases bytes with
  | none => exact Spec.throw _ fun s h => h
  | some bytes =>
    exact Spec.ite (fun _ => Spec.throw _ fun s h => h) fun _ => Spec.pure _ fun s h => h

theorem repairBootState_spec (slot : SystemSlot) (version : UInt64) :
    Spec (fun s => s.nvram = nvram) (repairBootState slot version) (fun _ s => s.nvram = nvram)
      (fun _ s => s.nvram = nvram) :=
  Spec.bind (writeVerifiedBootState_spec _ _) fun _ =>
    Spec.bind (writeVerifiedBootState_spec _ _) fun _ => Spec.pure _ fun _ h => h

theorem persistFallbackBootState_spec (state : BootState) (slot : SystemSlot) (version : UInt64) :
    Spec (fun s => s.nvram = nvram) (persistFallbackBootState state slot version)
      (fun _ s => s.nvram = nvram) (fun _ s => s.nvram = nvram) :=
  Spec.ite (fun _ => Spec.throw_bind _ fun _ h => h) fun _ =>
    Spec.bind (writeVerifiedBootState_spec _ _) fun _ => Spec.pure _ fun _ h => h

/-- A slot's examination as its caller sees it, with the variables' path so far. -/
theorem attempt_loadSystemSlot_spec (path : TrustPath platform files before nvram)
    (slot : SystemSlot) :
    Spec (At files faults nvram) (attempt (loadSystemSlot platform slot))
      (fun r s => ∃ nvram', At files faults nvram' s ∧ TrustPath platform files nvram nvram' ∧
        TrustPath platform files before nvram' ∧
        ∀ image, r = .ok image → examine platform files nvram slot = (some image, nvram')) fail := by
  refine (Spec.attempt loadSystemSlot_spec).weaken (fun _ h => h) ?_ fun _ _ h => h
  intro r s h
  cases r with
  | ok image =>
    obtain ⟨nvram', holds, examined⟩ := h
    have step : TrustPath platform files nvram nvram' := by
      have residue : Residue platform files nvram slot _ := residue_examine
      rw [examined] at residue
      exact residue.path
    refine ⟨nvram', holds, step, path.trans step, ?_⟩
    rintro _ ⟨⟩
    exact examined
  | error e =>
    obtain ⟨nvram', holds, residue, -⟩ := h
    exact ⟨nvram', holds, residue.path, path.trans residue.path, nofun⟩

theorem bootFallback_spec (path : TrustPath platform files before nvram) (state : BootState) :
    Spec (At files faults nvram) (bootFallback platform state)
      (fun image s => Booted platform files before s.nvram image)
      (fun _ s => TrustPath platform files before s.nvram) := by
  refine Spec.bind (attempt_loadSystemSlot_spec path _) fun r => ?_
  rintro s ⟨nvram', h, step, path', examined⟩
  cases r with
  | error e =>
    change TrustPath platform files before s.nvram
    exact h.nvram ▸ path'
  | ok image =>
    have accepted := examined image rfl
    refine Spec.bind (Spec.attempt (persistFallbackBootState_spec _ _ _)) (fun r => ?_) s h.nvram
    have booted (generation : UInt64) : Booted platform files before nvram'
        { image with
          bootStateGeneration := generation
          systemSlot := state.activeSlot.other.asU8
          recoveryFallback := 1 } :=
      ⟨_, nvram, nvram', image, path, accepted, .refl, _, _, _, rfl⟩
    cases r with
    | ok repaired =>
      exact Spec.pure _ fun s h => h ▸ booted repaired.generation
    | error e =>
      exact Spec.pure _ fun s h => h ▸ booted state.generation

theorem bootRecorded_spec (state : BootState) :
    Spec (At files faults nvram) (bootRecorded platform state)
      (fun image s => Booted platform files nvram s.nvram image)
      (fun _ s => TrustPath platform files nvram s.nvram) := by
  refine Spec.bind (attempt_loadSystemSlot_spec .refl _) fun r => ?_
  rintro s ⟨nvram', h, step, -, examined⟩
  cases r with
  | error e => exact bootFallback_spec step state s h
  | ok image =>
    refine Spec.ite (fun _ => Spec.pure _ fun s h => ?_) (fun _ => bootFallback_spec step state) s h
    exact ⟨_, nvram, nvram', image, .refl, examined image rfl, h.nvram ▸ .refl, _, _, _, rfl⟩

theorem betterImage_cases (h : betterImage selected slot r = some (held, image)) :
    r = .ok image ∨ selected = some (held, image) := by
  unfold betterImage at h
  split at h
  · exact .inr h
  · cases h
    exact .inl rfl
  · split at h
    · cases h
      exact .inl rfl
    · exact .inr h

theorem recoverFromMissingBootState_spec :
    Spec (At files faults nvram) (recoverFromMissingBootState platform)
      (fun image s => Booted platform files nvram s.nvram image)
      (fun _ s => TrustPath platform files nvram s.nvram) := by
  refine Spec.bind (attempt_loadSystemSlot_spec .refl _) fun first => ?_
  rintro s ⟨middle, h, step, -, examinedA⟩
  refine Spec.bind (attempt_loadSystemSlot_spec step _) (fun second => ?_) s h
  rintro s ⟨last, h, step', path, examinedB⟩
  cases chosen : betterImage (betterImage none .A first) .B second with
  | none =>
    change TrustPath platform files nvram s.nvram
    exact h.nvram ▸ path
  | some pair =>
    obtain ⟨slot, image⟩ := pair
    have booted (generation : UInt64) : Booted platform files nvram last
        { image with
          bootStateGeneration := generation
          systemSlot := slot.asU8
          recoveryFallback := 1 } := by
      obtain rfl | held := betterImage_cases chosen
      · exact ⟨_, middle, last, image, step, examinedB image rfl, .refl, _, _, _, rfl⟩
      · obtain rfl | impossible := betterImage_cases held
        · exact ⟨_, nvram, middle, image, .refl, examinedA image rfl, step', _, _, _, rfl⟩
        · cases impossible
    refine Spec.bind (Spec.attempt (repairBootState_spec _ _)) (fun r => ?_) s h.nvram
    cases r with
    | ok state => exact Spec.pure _ fun s h => h ▸ booted state.generation
    | error e => exact Spec.pure _ fun s h => h ▸ booted 0

/-- A boot moves the variables along trust steps, and what it returns was accepted on the way. -/
theorem loadKernelImage_spec :
    Spec (At files faults nvram) (loadKernelImage platform)
      (fun image s => Booted platform files nvram s.nvram image)
      (fun _ s => TrustPath platform files nvram s.nvram) := by
  unfold loadKernelImage
  refine Spec.bind nextFault_spec fun fault => Spec.ite (fun _ => ?_) fun _ => ?_
  · exact Spec.throw_bind _ fun s h => h.nvram ▸ .refl
  · refine Spec.bind (Spec.attempt loadBootState_spec) fun r => ?_
    cases r with
    | ok state => exact bootRecorded_spec state
    | error e =>
      cases e with
      | bootStateUnavailable => exact recoverFromMissingBootState_spec
      | _ => exact Spec.throw _ fun s h => h.nvram ▸ .refl

end

/-- A kernel that is what its manifest says, under a root trusted when it was checked. -/
def Authentic (platform : Platform) (files : Volume) (before after : Nvram)
    (image : KernelImageInfo) : Prop :=
  ∃ slot kernel manifest root checked base,
    slotFiles files slot = some (kernel, manifest) ∧
    TrustPath platform files before checked ∧ TrustPath platform files checked after ∧
    trustRootOf platform checked = some root ∧ Verified platform kernel manifest root ∧
    stagedImage platform kernel manifest = some base ∧ BootedAs image base ∧
    image.releaseVersion = manifest.releaseVersion ∧ image.kernelSha256 = manifest.kernelSha256

/-- One boot of a history: what it found, what it returned and what it left. -/
structure BootEvent where
  files : Volume
  before : Nvram
  outcome : Except KernelLoadError KernelImageInfo
  after : Nvram

def bootEvent (platform : Platform) (nvram : Nvram) (files : Volume) (faults : Nat → Fault) :
    BootEvent where
  files := files
  before := nvram
  outcome := Effect.outcome (loadKernelImage platform) (powerOn files nvram faults)
  after := (Effect.after (loadKernelImage platform) (powerOn files nvram faults)).nvram

/-- Boot after boot: each finds the variables the last one left, on a volume and with firmware
    faults of the adversary's choice. -/
def history (platform : Platform) : Nvram → List (Volume × (Nat → Fault)) → List BootEvent
  | _, [] => []
  | nvram, (files, faults) :: rest =>
    let event := bootEvent platform nvram files faults
    event :: history platform event.after rest

section

variable {platform : Platform} {files : Volume} {faults : Nat → Fault} {nvram : Nvram}

theorem Booted.authentic {before after : Nvram} {image : KernelImageInfo}
    (h : Booted platform files before after image) :
    Authentic platform files before after image ∧
      (∀ floor, releaseFloor before = some floor → floor ≤ image.releaseVersion) ∧
      ∃ floor, releaseFloor after = some floor ∧ image.releaseVersion ≤ floor := by
  obtain ⟨slot, checked, passed, base, path, examined, rest, bootedAs⟩ := h
  obtain ⟨root, kernel, manifest, found, active, verified, staged, atLeast, raised⟩ :=
    floor_of_examine examined
  obtain ⟨version, hash, -, -⟩ := stagedImage_fields staged
  have same : image.releaseVersion = manifest.releaseVersion ∧
      image.kernelSha256 = manifest.kernelSha256 := by
    obtain ⟨_, _, _, rfl⟩ := bootedAs
    exact ⟨version, hash⟩
  have examination : TrustPath platform files checked passed := by
    have residue : Residue platform files checked slot _ := residue_examine
    rw [examined] at residue
    exact residue.path
  refine ⟨⟨slot, kernel, manifest, root, checked, base, found, path, examination.trans rest, active,
    verified, staged, bootedAs, same⟩, ?_, ?_⟩
  · intro floor known
    obtain ⟨middle, known, le⟩ := path.floorLe floor known
    rw [same.1]
    exact UInt64.le_trans le (atLeast middle known)
  · rw [same.1]
    exact rest.floorLe _ raised

theorem bootEvent_path (nvram : Nvram) (files : Volume) (faults : Nat → Fault) :
    TrustPath platform files nvram (bootEvent platform nvram files faults).after := by
  have spec : Spec (At files faults nvram) (loadKernelImage platform) _ _ := loadKernelImage_spec
  have run := spec (powerOn files nvram faults) ⟨rfl, rfl, rfl⟩
  unfold bootEvent after
  cases result : (loadKernelImage platform).run (powerOn files nvram faults) with
  | ok image s =>
    rw [result] at run
    obtain ⟨⟨_, _, _, _, _, _, -, path, path', -⟩, -⟩ := Booted.authentic run
    exact path.trans path'
  | error e s =>
    rw [result] at run
    exact run

theorem bootEvent_booted (ok : (bootEvent platform nvram files faults).outcome = .ok image) :
    Booted platform files nvram (bootEvent platform nvram files faults).after image := by
  have spec : Spec (At files faults nvram) (loadKernelImage platform) _ _ := loadKernelImage_spec
  have run := spec (powerOn files nvram faults) ⟨rfl, rfl, rfl⟩
  rw [run_of_outcome_ok ok] at run
  exact run

theorem of_mem_history :
    ∀ {nvram : Nvram}, event ∈ history platform nvram inputs →
      ∃ before files faults, FloorLe nvram before ∧
        event = bootEvent platform before files faults := by
  induction inputs with
  | nil =>
    intro nvram member
    cases member
  | cons input rest ih =>
    obtain ⟨files, faults⟩ := input
    intro nvram member
    cases member with
    | head =>
      exact ⟨nvram, files, faults, fun floor known => ⟨floor, known, UInt64.le_refl floor⟩, rfl⟩
    | tail _ later =>
      obtain ⟨before, files', faults', le, rfl⟩ := ih later
      exact ⟨before, files', faults', (bootEvent_path nvram files faults).floorLe.trans le, rfl⟩

theorem pairwise_history (inputs : List (Volume × (Nat → Fault))) :
    ∀ nvram : Nvram, (history platform nvram inputs).Pairwise fun event later =>
      FloorLe event.after later.before := by
  induction inputs with
  | nil => exact fun _ => .nil
  | cons input rest ih =>
    intro nvram
    refine .cons (fun later member => ?_) (ih _)
    obtain ⟨before, _, _, le, rfl⟩ := of_mem_history member
    exact le

theorem releaseVersion_le (ok : (bootEvent platform before files faults).outcome = .ok image)
    (ok' : (bootEvent platform before' files' faults').outcome = .ok image')
    (le : FloorLe (bootEvent platform before files faults).after before') :
    image.releaseVersion ≤ image'.releaseVersion := by
  obtain ⟨-, -, floor, known, below⟩ := (bootEvent_booted ok).authentic
  obtain ⟨floor', known', le⟩ := le floor known
  obtain ⟨-, atLeast, -⟩ := (bootEvent_booted ok').authentic
  exact UInt64.le_trans below (UInt64.le_trans le (atLeast floor' known'))

theorem bootEvent_of_examine (served : Served faults) (recorded : newestRecord files = some state)
    (accepted : examine platform files nvram state.activeSlot = (some image, nvram'))
    (version : image.releaseVersion = state.activeReleaseVersion) :
    (bootEvent platform nvram files faults).outcome =
        .ok { image with
          bootStateGeneration := state.generation
          systemSlot := state.activeSlot.asU8 } ∧
      (bootEvent platform nvram files faults).after = nvram' := by
  have booted := boot_of_active recorded accepted version
  exact ⟨(outcome_eq_ok served).mpr (by rw [booted]), (after_nvram served).trans (by rw [booted])⟩

/-- The first release names key 2, which is in force after it was booted. -/
theorem Toy.rotated : trustRootOf Toy.platform
    (adoptRoot (raiseFloor Toy.fresh 0 3) (some (Toy.nextRoot 3 2))) =
      some (successor (Toy.manifest 3 1 2)) :=
  trustRootOf_set_trustRoot (Toy.wellFormed (by decide) (by decide))
    ((trustRootOf_raiseFloor 0 3).trans Toy.trustRootOf_fresh)
    (Toy.nextTrustRoot_rotate rfl (by decide) (by decide))

end

end CodexOS.Release
