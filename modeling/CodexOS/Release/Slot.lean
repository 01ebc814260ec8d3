import CodexOS.Release.Canonical
import CodexOS.Release.Loader

/-! # What examining a slot does

`examine` says, as a function of the volume and the variables, whether a slot is
accepted and what its examination leaves in the variables. `loadSystemSlot`
computes exactly that when every firmware call is served, and stops somewhere on
the way when one is not.
-/

namespace CodexOS.Release

open Bytes Effect

/-- Every call of the boot is served. -/
def Served (faults : Nat → Fault) : Prop :=
  ∀ n, faults n = .none

section

variable (platform : Platform)

/-- The root the loader trusts: the persisted one, or the embedded one before any was persisted. -/
def trustRootOf (nvram : Nvram) : Option TrustRoot :=
  match embeddedTrustedPublicKey platform with
  | none => none
  | some embeddedPublicKey =>
    match nvram.read .trustRoot trustRootStateBytes with
    | .error .notFound =>
      some
        { publicKey := embeddedPublicKey
          keyId := keyIdForPublicKey platform embeddedPublicKey
          source := .embedded
          activationReleaseVersion := 0 }
    | .error _ => none
    | .ok value =>
      if value.length ≠ trustRootStateBytes then none
      else
        match TrustRootState.decode value with
        | .error _ => none
        | .ok state =>
          if !platform.validKey state.publicKey then none
          else if keyIdForPublicKey platform state.publicKey ≠ state.keyId then none
          else
            some
              { publicKey := state.publicKey
                keyId := state.keyId
                source := .persisted
                activationReleaseVersion := state.activationReleaseVersion }

/-- The kernel is the one the manifest describes, and the manifest is signed by the root. -/
structure Verified (platform : Platform) (kernel : Bytes) (manifest : UpdateManifest)
    (root : TrustRoot) : Prop where
  size : kernel.length = manifest.kernelSize.toNat
  hash : platform.sha256 kernel = manifest.kernelSha256
  key : platform.validKey root.publicKey = true
  keyId : root.keyId = manifest.keyId
  signed : platform.verifyStrict root.publicKey (manifest.signingBytes.take manifest.signingLen)
    manifest.signature = true

instance (platform : Platform) (kernel : Bytes) (manifest : UpdateManifest) (root : TrustRoot) :
    Decidable (Verified platform kernel manifest root) :=
  decidable_of_iff
    (kernel.length = manifest.kernelSize.toNat ∧ platform.sha256 kernel = manifest.kernelSha256 ∧
      platform.validKey root.publicKey = true ∧ root.keyId = manifest.keyId ∧
      platform.verifyStrict root.publicKey (manifest.signingBytes.take manifest.signingLen)
        manifest.signature = true)
    ⟨fun ⟨size, hash, key, keyId, signed⟩ => ⟨size, hash, key, keyId, signed⟩,
      fun h => ⟨h.size, h.hash, h.key, h.keyId, h.signed⟩⟩

/-- The image of a kernel file whose manifest names it. -/
def stagedImage (kernel : Bytes) (manifest : UpdateManifest) : Option KernelImageInfo :=
  match parseKernelImage platform kernel with
  | none => none
  | some parsed =>
    stageKernelSegments platform
      { parsed with
        releaseVersion := manifest.releaseVersion
        signatureVerified := 1
        verificationKeyId := manifest.keyId
        kernelSha256 := manifest.kernelSha256 }
      kernel

/-- The files of a slot: its kernel and its decoded manifest. -/
def slotFiles (files : Volume) (slot : SystemSlot) : Option (Bytes × UpdateManifest) :=
  match files (.kernel slot), files (.manifest slot) with
  | some kernel, some manifestBytes =>
    match UpdateManifest.decode manifestBytes with
    | .ok manifest => some (kernel, manifest)
    | .error _ => none
  | _, _ => none

/-- The release a slot holds, if `root` vouches for it and it can be staged. -/
def slotRelease (files : Volume) (root : TrustRoot) (slot : SystemSlot) :
    Option (UpdateManifest × KernelImageInfo) :=
  match slotFiles files slot with
  | none => none
  | some (kernel, manifest) =>
    if Verified platform kernel manifest root then
      (stagedImage platform kernel manifest).map fun image => (manifest, image)
    else none

/-- The release floor; `none` when the variable is malformed. -/
def releaseFloor (nvram : Nvram) : Option UInt64 :=
  match nvram.read .highestRelease 8 with
  | .error .notFound => some 0
  | .error _ => none
  | .ok value => if value.length = 8 then some (UInt64.ofNat (leNat value)) else none

def raiseFloor (nvram : Nvram) (floor candidate : UInt64) : Nvram :=
  if candidate > floor then nvram.set .highestRelease (le 8 candidate.toNat) else nvram

/-- What a manifest asks of the trust root: `none` if its next key is malformed,
    `some none` to keep the root, `some (some state)` to persist a new one. -/
def nextTrustRoot (manifest : UpdateManifest) (current : TrustRoot) :
    Option (Option TrustRootState) :=
  if !manifest.hasNextTrustKey then some none
  else if !platform.validKey manifest.nextTrustPublicKey then none
  else if keyIdForPublicKey platform manifest.nextTrustPublicKey ≠ manifest.nextTrustKeyId then none
  else if manifest.nextTrustPublicKey = current.publicKey then some none
  else
    some (some
      { activationReleaseVersion := manifest.releaseVersion
        publicKey := manifest.nextTrustPublicKey
        keyId := keyIdForPublicKey platform manifest.nextTrustPublicKey })

def adoptRoot (nvram : Nvram) : Option TrustRootState → Nvram
  | none => nvram
  | some state => nvram.set .trustRoot state.encode

/-- Examine a slot: the image if it is accepted, and the variables afterwards. -/
def examine (files : Volume) (nvram : Nvram) (slot : SystemSlot) : Option KernelImageInfo × Nvram :=
  match trustRootOf platform nvram with
  | none => (none, nvram)
  | some root =>
    match slotRelease platform files root slot, releaseFloor nvram with
    | some (manifest, image), some floor =>
      if manifest.releaseVersion < floor then (none, nvram)
      else
        let raised := raiseFloor nvram floor manifest.releaseVersion
        -- a malformed next key is found only after the floor has been raised
        match nextTrustRoot platform manifest root with
        | none => (none, raised)
        | some next => (some image, adoptRoot raised next)
    | _, _ => (none, nvram)

end

/-- The firmware's volume, variables and faults, whatever the number of calls made. -/
structure At (files : Volume) (faults : Nat → Fault) (nvram : Nvram) (firmware : Firmware) :
    Prop where
  files : firmware.files = files
  faults : firmware.faults = faults
  nvram : firmware.nvram = nvram

section

variable {files : Volume} {faults : Nat → Fault} {nvram : Nvram}
  {fail : KernelLoadError → Firmware → Prop}

theorem not_served (n : Nat) (h : faults n ≠ .none) : ¬Served faults :=
  fun served => h (served n)

theorem nextFault_spec :
    Spec (At files faults nvram) nextFault (fun _ s => At files faults nvram s) fail :=
  fun _ h => ⟨h.files, h.faults, h.nvram⟩

theorem run_readFile (file : BootFile) (s : Firmware) :
    (readFile file).run s =
      .ok (if s.faults s.calls = .none then s.files file else none)
        { s with calls := s.calls + 1 } :=
  rfl

theorem run_stageServed (platform : Platform) (info : KernelImageInfo) (bytes : Bytes)
    (s : Firmware) :
    (stageServed platform info bytes).run s =
      .ok (if s.faults s.calls = .none then stageKernelSegments platform info bytes else none)
        { s with calls := s.calls + 1 } :=
  rfl

theorem run_getVariable (name : Variable) (size : Nat) (s : Firmware) :
    (getVariable name size).run s =
      .ok (if s.faults s.calls = .none then s.nvram.read name size else .error .deviceError)
        { s with calls := s.calls + 1 } :=
  rfl

/-- A call that writes, unless the firmware refuses it. -/
theorem run_unlessRefused (change : Firmware → Firmware) (s : Firmware) :
    EStateM.run (do
      let fault ← nextFault
      if fault ≠ .refused then modify change
      pure (decide (fault = .none)) : Boot Bool) s =
      .ok (decide (s.faults s.calls = .none))
        ((if s.faults s.calls = .refused then id else change) { s with calls := s.calls + 1 }) := by
  change EStateM.run (if s.faults s.calls ≠ .refused then _ else _) _ = _
  by_cases refused : s.faults s.calls = .refused
  · rw [if_neg (not_not.mpr refused), if_pos refused]
    rfl
  · rw [if_pos refused, if_neg refused]
    rfl

theorem run_setVariable (name : Variable) (value : Bytes) (s : Firmware) :
    (setVariable name value).run s =
      .ok (decide (s.faults s.calls = .none))
        { s with
          calls := s.calls + 1
          nvram := if s.faults s.calls = .refused then s.nvram else s.nvram.set name value } := by
  refine (run_unlessRefused _ s).trans ?_
  split <;> rfl

theorem run_writeFile (file : BootFile) (bytes : Bytes) (s : Firmware) :
    (writeFile file bytes).run s =
      .ok (decide (s.faults s.calls = .none))
        { s with
          calls := s.calls + 1
          files := if s.faults s.calls = .refused then s.files else s.files.set file bytes } := by
  refine (run_unlessRefused _ s).trans ?_
  split <;> rfl

/-- A call that only reads returns its answer, unless it is not served. -/
theorem read_spec {β : Type} {x : Boot β} {read : Firmware → β} {answer failed : β}
    (run : ∀ s, x.run s = .ok (if s.faults s.calls = .none then read s else failed)
      { s with calls := s.calls + 1 })
    (isAnswer : ∀ s, At files faults nvram s → read s = answer) :
    Spec (At files faults nvram) x
      (fun r s => At files faults nvram s ∧ (r = answer ∨ r = failed ∧ ¬Served faults)) fail := by
  intro s h
  rw [run, isAnswer s h]
  refine ⟨⟨h.files, h.faults, h.nvram⟩, ?_⟩
  split
  · exact .inl rfl
  · exact .inr ⟨rfl, not_served s.calls (h.faults ▸ ‹_›)⟩

theorem readFile_spec (file : BootFile) :
    Spec (At files faults nvram) (readFile file)
      (fun r s => At files faults nvram s ∧ (r = files file ∨ r = none ∧ ¬Served faults)) fail :=
  read_spec (run_readFile file) fun _ h => congrFun h.files file

theorem stageServed_spec (platform : Platform) (info : KernelImageInfo) (bytes : Bytes) :
    Spec (At files faults nvram) (stageServed platform info bytes)
      (fun r s => At files faults nvram s ∧
        (r = stageKernelSegments platform info bytes ∨ r = none ∧ ¬Served faults)) fail :=
  read_spec (run_stageServed platform info bytes) fun _ _ => rfl

theorem getVariable_spec (name : Variable) (size : Nat) :
    Spec (At files faults nvram) (getVariable name size)
      (fun r s => At files faults nvram s ∧
        (r = nvram.read name size ∨ r = .error .deviceError ∧ ¬Served faults)) fail :=
  read_spec (run_getVariable name size) fun _ h => by rw [h.nvram]

theorem setVariable_spec (name : Variable) (value : Bytes) :
    Spec (At files faults nvram) (setVariable name value)
      (fun written s => match written with
        | true => At files faults (nvram.set name value) s
        | false => ¬Served faults ∧
            (At files faults nvram s ∨ At files faults (nvram.set name value) s)) fail := by
  intro s h
  rw [run_setVariable]
  obtain ⟨rfl, rfl, rfl⟩ := h
  cases fault : s.faults s.calls with
  | none => exact ⟨rfl, rfl, rfl⟩
  | refused => exact ⟨not_served s.calls (by simp [fault]), .inl ⟨rfl, rfl, rfl⟩⟩
  | unacknowledged => exact ⟨not_served s.calls (by simp [fault]), .inr ⟨rfl, rfl, rfl⟩⟩

theorem activeTrustRoot_spec (platform : Platform) :
    Spec (At files faults nvram) (activeTrustRoot platform)
      (fun root s => At files faults nvram s ∧ trustRootOf platform nvram = some root)
      (fun _ s => At files faults nvram s ∧ (trustRootOf platform nvram = none ∨ ¬Served faults)) := by
  unfold activeTrustRoot trustRootOf
  cases embedded : embeddedTrustedPublicKey platform with
  | none => exact Spec.throw _ fun s h => ⟨h, .inl rfl⟩
  | some embeddedPublicKey =>
    refine Spec.bind (getVariable_spec _ _) fun answer => Spec.assume fun read => ?_
    obtain rfl | ⟨rfl, faulty⟩ := read
    · cases read : nvram.read .trustRoot trustRootStateBytes with
      | error status =>
        cases status with
        | notFound => exact Spec.pure _ fun s h => ⟨h, rfl⟩
        | bufferTooSmall | deviceError => exact Spec.throw _ fun s h => ⟨h, .inl rfl⟩
      | ok value =>
        dsimp only
        split
        · exact Spec.throw _ fun s h => ⟨h, .inl rfl⟩
        · cases decoded : TrustRootState.decode value with
          | error _ => exact Spec.throw _ fun s h => ⟨h, .inl rfl⟩
          | ok state =>
            dsimp only
            split
            · exact Spec.throw _ fun s h => ⟨h, .inl rfl⟩
            · split
              · exact Spec.throw _ fun s h => ⟨h, .inl rfl⟩
              · exact Spec.pure _ fun s h => ⟨h, rfl⟩
    · exact Spec.throw _ fun s h => ⟨h, .inr faulty⟩

theorem verifyKernelRelease_spec (platform : Platform) (kernel : Bytes)
    (manifest : UpdateManifest) :
    Spec (At files faults nvram) (verifyKernelRelease platform kernel manifest)
      (fun root s => At files faults nvram s ∧ trustRootOf platform nvram = some root ∧
        Verified platform kernel manifest root)
      (fun _ s => At files faults nvram s ∧
        ((∀ root, trustRootOf platform nvram = some root → ¬Verified platform kernel manifest root) ∨
          ¬Served faults)) := by
  unfold verifyKernelRelease
  refine Spec.ite (fun wrong => Spec.throw_bind _ fun s h =>
    ⟨h, .inl fun _ _ verified => wrong verified.size⟩) fun size => ?_
  refine Spec.ite (fun wrong => Spec.throw_bind _ fun s h =>
    ⟨h, .inl fun _ _ verified => wrong verified.hash⟩) fun hash => ?_
  refine Spec.bind ((activeTrustRoot_spec platform).weaken_fail ?_)
    fun root => Spec.assume fun active => ?_
  · rintro _ s ⟨h, none | faulty⟩
    · exact ⟨h, .inl fun root some => absurd some (by simp [none])⟩
    · exact ⟨h, .inr faulty⟩
  have unique : ∀ other, trustRootOf platform nvram = some other → other = root := by
    intro other same
    exact Option.some.inj (same.symm.trans active)
  refine Spec.ite (fun wrong => Spec.throw_bind _ fun s h => ⟨h, .inl fun other same verified => ?_⟩)
    fun key => ?_
  · cases unique other same
    simp [verified.key] at wrong
  refine Spec.ite (fun wrong => Spec.throw_bind _ fun s h => ⟨h, .inl fun other same verified => ?_⟩)
    fun keyId => ?_
  · cases unique other same
    exact wrong verified.keyId
  refine Spec.ite (fun wrong => Spec.throw_bind _ fun s h => ⟨h, .inl fun other same verified => ?_⟩)
    fun signed => ?_
  · cases unique other same
    simp [verified.signed] at wrong
  exact Spec.pure _ fun s h =>
    ⟨h, active, not_not.mp size, not_not.mp hash, by simpa using key, not_not.mp keyId,
      by simpa using signed⟩

theorem readReleaseFloor_spec :
    Spec (At files faults nvram) readReleaseFloor
      (fun floor s => At files faults nvram s ∧ releaseFloor nvram = some floor)
      (fun _ s => At files faults nvram s ∧ (releaseFloor nvram = none ∨ ¬Served faults)) := by
  unfold readReleaseFloor releaseFloor
  refine Spec.bind (getVariable_spec _ _) fun answer => Spec.assume fun read => ?_
  obtain rfl | ⟨rfl, faulty⟩ := read
  · cases nvram.read .highestRelease 8 with
    | error status =>
      cases status with
      | notFound => exact Spec.pure _ fun s h => ⟨h, rfl⟩
      | bufferTooSmall | deviceError => exact Spec.throw _ fun s h => ⟨h, .inl rfl⟩
    | ok value =>
      dsimp only
      split
      · exact Spec.pure _ fun s h => ⟨h, rfl⟩
      · exact Spec.throw _ fun s h => ⟨h, .inl rfl⟩
  · exact Spec.throw _ fun s h => ⟨h, .inr faulty⟩

/-- The candidate is at least the floor, and the floor is now the candidate. -/
def Raised (files : Volume) (faults : Nat → Fault) (nvram : Nvram) (candidate : UInt64)
    (s : Firmware) : Prop :=
  ∃ floor, releaseFloor nvram = some floor ∧ ¬candidate < floor ∧
    At files faults (raiseFloor nvram floor candidate) s

theorem enforceReleaseVersion_spec (candidate : UInt64) :
    Spec (At files faults nvram) (enforceReleaseVersion candidate)
      (fun _ s => Raised files faults nvram candidate s)
      (fun _ s =>
        At files faults nvram s ∧ (∀ floor, releaseFloor nvram = some floor → candidate < floor) ∨
        ¬Served faults ∧ (At files faults nvram s ∨ Raised files faults nvram candidate s)) := by
  unfold enforceReleaseVersion
  refine Spec.bind (readReleaseFloor_spec.weaken_fail ?_) fun floor => Spec.assume fun known => ?_
  · rintro _ s ⟨h, none | faulty⟩
    · exact .inl ⟨h, fun floor known => absurd known (by simp [none])⟩
    · exact .inr ⟨faulty, .inl h⟩
  refine Spec.ite (fun below => Spec.throw_bind _ fun s h => .inl ⟨h, fun other same => ?_⟩)
    fun atLeast => ?_
  · cases known.symm.trans same
    exact below
  refine Spec.ite (fun above => ?_) fun level => ?_
  · have raised : raiseFloor nvram floor candidate =
        nvram.set .highestRelease (le 8 candidate.toNat) := if_pos above
    refine Spec.bind (setVariable_spec _ _) fun written => ?_
    rw [← raised]
    cases written with
    | true => exact Spec.pure _ fun s h => ⟨floor, known, atLeast, h⟩
    | false =>
      refine Spec.throw _ ?_
      rintro s ⟨faulty, same | h⟩
      · exact .inr ⟨faulty, .inl same⟩
      · exact .inr ⟨faulty, .inr ⟨floor, known, atLeast, h⟩⟩
  · have same : raiseFloor nvram floor candidate = nvram := if_neg level
    exact Spec.pure _ fun s h => ⟨floor, known, atLeast, same.symm ▸ h⟩

theorem read_set_trustRoot (state : TrustRootState) :
    (nvram.set .trustRoot state.encode).read .trustRoot trustRootStateBytes = .ok state.encode := by
  simp [Nvram.read, Nvram.set, Nvram.get, trustRootStateBytes]

theorem nextTrustRoot_eq_some (h : nextTrustRoot platform manifest root = some (some state)) :
    manifest.hasNextTrustKey = true ∧ platform.validKey manifest.nextTrustPublicKey = true ∧
      keyIdForPublicKey platform manifest.nextTrustPublicKey = manifest.nextTrustKeyId ∧
      manifest.nextTrustPublicKey ≠ root.publicKey ∧
      state =
        { activationReleaseVersion := manifest.releaseVersion
          publicKey := manifest.nextTrustPublicKey
          keyId := keyIdForPublicKey platform manifest.nextTrustPublicKey } := by
  unfold nextTrustRoot at h
  split at h
  · cases h
  split at h
  · cases h
  split at h
  · cases h
  split at h
  · cases h
  rename_i present valid sameId different
  exact ⟨by simpa using present, by simpa using valid, not_not.mp sameId, different,
    (Option.some.inj (Option.some.inj h)).symm⟩

theorem decode_nextTrustRoot (wellFormed : manifest.WellFormed)
    (next : nextTrustRoot platform manifest current = some (some state)) :
    TrustRootState.decode state.encode = .ok state := by
  obtain ⟨present, -, sameId, -, rfl⟩ := nextTrustRoot_eq_some next
  have key : manifest.nextTrustPublicKey ≠ Vector.replicate 32 0 := by
    intro zero
    simp [UpdateManifest.hasNextTrustKey, zero] at present
  refine TrustRootState.decode_encode wellFormed.release key ?_
  rw [sameId]
  exact fun zero => key (wellFormed.nextKey.mpr zero)

theorem storeTrustRoot_spec (readBack : TrustRootState.decode state.encode = .ok state) :
    Spec (At files faults nvram) (storeTrustRoot state)
      (fun _ s => At files faults (nvram.set .trustRoot state.encode) s)
      (fun _ s => ¬Served faults ∧ (At files faults nvram s ∨
        At files faults (nvram.set .trustRoot state.encode) s)) := by
  unfold storeTrustRoot
  refine Spec.bind (setVariable_spec _ _) fun written => ?_
  cases written with
  | false => exact Spec.throw_bind _ fun s h => h
  | true =>
    refine Spec.bind (getVariable_spec _ _) fun answer => Spec.assume fun read => ?_
    rw [read_set_trustRoot] at read
    obtain rfl | ⟨rfl, faulty⟩ := read
    · have clean : ¬(state.encode.length ≠ trustRootStateBytes ∨
          (TrustRootState.decode state.encode).toOption ≠ some state) := by
        simp [readBack, trustRootStateBytes, Except.toOption]
      dsimp only
      rw [if_neg clean]
      exact Spec.pure _ fun s h => h
    · exact Spec.throw _ fun s h => ⟨faulty, .inr h⟩

/-- The root the manifest asks for is in force. -/
def Adopted (platform : Platform) (manifest : UpdateManifest) (current : TrustRoot)
    (files : Volume) (faults : Nat → Fault) (nvram : Nvram) (s : Firmware) : Prop :=
  ∃ next, nextTrustRoot platform manifest current = some next ∧
    At files faults (adoptRoot nvram next) s

theorem applyTrustRootUpdate_spec (wellFormed : manifest.WellFormed) :
    Spec (At files faults nvram) (applyTrustRootUpdate platform manifest current)
      (fun _ s => Adopted platform manifest current files faults nvram s)
      (fun _ s =>
        At files faults nvram s ∧ nextTrustRoot platform manifest current = none ∨
        ¬Served faults ∧ (At files faults nvram s ∨
          Adopted platform manifest current files faults nvram s)) := by
  unfold applyTrustRootUpdate
  refine Spec.ite (fun absent => Spec.pure _ fun s h => ⟨none, ?_, h⟩) fun present => ?_
  · simp only [nextTrustRoot, absent, if_true]
  refine Spec.ite (fun malformed => Spec.throw_bind _ fun s h => .inl ⟨h, ?_⟩) fun valid => ?_
  · simp only [nextTrustRoot, present, malformed, if_true, if_false, Bool.false_eq_true]
  refine Spec.ite (fun wrongId => Spec.throw_bind _ fun s h => .inl ⟨h, ?_⟩) fun rightId => ?_
  · rw [nextTrustRoot, if_neg present, if_neg valid, if_pos wrongId]
  refine Spec.ite (fun same => Spec.pure _ fun s h => ⟨none, ?_, h⟩) fun different => ?_
  · rw [nextTrustRoot, if_neg present, if_neg valid, if_neg rightId, if_pos same]
  have next : nextTrustRoot platform manifest current = some (some
      { activationReleaseVersion := manifest.releaseVersion
        publicKey := manifest.nextTrustPublicKey
        keyId := keyIdForPublicKey platform manifest.nextTrustPublicKey }) := by
    rw [nextTrustRoot, if_neg present, if_neg valid, if_neg rightId, if_neg different]
  refine (storeTrustRoot_spec (decode_nextTrustRoot wellFormed next)).weaken (fun _ h => h)
    (fun _ s h => ⟨_, next, h⟩) ?_
  rintro _ s ⟨faulty, same | h⟩
  · exact .inr ⟨faulty, .inl same⟩
  · exact .inr ⟨faulty, .inr ⟨_, next, h⟩⟩

end

/-- The slot passes every check made before the variables are touched. -/
structure Admitted (platform : Platform) (files : Volume) (nvram : Nvram) (slot : SystemSlot)
    (root : TrustRoot) (manifest : UpdateManifest) (image : KernelImageInfo) (floor : UInt64) :
    Prop where
  active : trustRootOf platform nvram = some root
  release : slotRelease platform files root slot = some (manifest, image)
  known : releaseFloor nvram = some floor
  atLeast : ¬manifest.releaseVersion < floor

/-- What an examination, complete or cut short, can leave in the variables. -/
inductive Residue (platform : Platform) (files : Volume) (nvram : Nvram) (slot : SystemSlot) :
    Nvram → Prop where
  | untouched : Residue platform files nvram slot nvram
  | raised {root : TrustRoot} {manifest : UpdateManifest} {image : KernelImageInfo}
      {floor : UInt64} (admitted : Admitted platform files nvram slot root manifest image floor) :
      Residue platform files nvram slot (raiseFloor nvram floor manifest.releaseVersion)
  | adopted {root : TrustRoot} {manifest : UpdateManifest} {image : KernelImageInfo}
      {floor : UInt64} {state : TrustRootState}
      (admitted : Admitted platform files nvram slot root manifest image floor)
      (next : nextTrustRoot platform manifest root = some (some state)) :
      Residue platform files nvram slot
        ((raiseFloor nvram floor manifest.releaseVersion).set .trustRoot state.encode)

section

variable {platform : Platform} {files : Volume} {nvram : Nvram} {slot : SystemSlot}
  {root : TrustRoot} {manifest : UpdateManifest} {image : KernelImageInfo} {floor : UInt64}

theorem stagedImage_fields (h : stagedImage platform kernel manifest = some image) :
    image.releaseVersion = manifest.releaseVersion ∧ image.kernelSha256 = manifest.kernelSha256 ∧
      image.verificationKeyId = manifest.keyId ∧ image.signatureVerified = 1 := by
  unfold stagedImage at h
  split at h
  · cases h
  · unfold stageKernelSegments at h
    split at h
    · cases h
    · cases h
      exact ⟨rfl, rfl, rfl, rfl⟩

theorem slotRelease_eq_some :
    slotRelease platform files root slot = some (manifest, image) ↔
      ∃ kernel, slotFiles files slot = some (kernel, manifest) ∧
        Verified platform kernel manifest root ∧
        stagedImage platform kernel manifest = some image := by
  unfold slotRelease
  cases found : slotFiles files slot with
  | none => simp
  | some pair =>
    obtain ⟨kernel, decoded⟩ := pair
    by_cases verified : Verified platform kernel decoded root
    · simp only [if_pos verified, Option.map_eq_some_iff, Option.some.injEq, Prod.mk.injEq]
      constructor
      · rintro ⟨staged, holds, rfl, rfl⟩
        exact ⟨kernel, ⟨rfl, rfl⟩, verified, holds⟩
      · rintro ⟨_, ⟨rfl, rfl⟩, -, holds⟩
        exact ⟨image, holds, rfl, rfl⟩
    · simp only [if_neg verified, Option.some.injEq, Prod.mk.injEq]
      constructor
      · intro h
        cases h
      · rintro ⟨_, ⟨rfl, rfl⟩, contrary, -⟩
        exact absurd contrary verified

theorem slotFiles_eq_some :
    slotFiles files slot = some (kernel, manifest) ↔
      ∃ encoded, files (.kernel slot) = some kernel ∧ files (.manifest slot) = some encoded ∧
        UpdateManifest.decode encoded = .ok manifest := by
  unfold slotFiles
  cases files (.kernel slot) with
  | none => simp
  | some bytes =>
    cases files (.manifest slot) with
    | none => simp
    | some encoded =>
      cases decoded : UpdateManifest.decode encoded with
      | error _ => simp [decoded]
      | ok found => simp [decoded]

section

variable (h : Admitted platform files nvram slot root manifest image floor)

include h

theorem Admitted.of_files (readKernel : files (.kernel slot) = some kernel)
    (readManifest : files (.manifest slot) = some encoded)
    (decodes : UpdateManifest.decode encoded = .ok decoded) :
    manifest = decoded ∧ Verified platform kernel decoded root ∧
      stagedImage platform kernel decoded = some image := by
  obtain ⟨kernel', found, verified, staged⟩ := slotRelease_eq_some.mp h.release
  obtain ⟨encoded', hk, hm, hd⟩ := slotFiles_eq_some.mp found
  cases readKernel.symm.trans hk
  cases readManifest.symm.trans hm
  cases decodes.symm.trans hd
  exact ⟨rfl, verified, staged⟩

theorem Admitted.exists_files :
    ∃ kernel encoded, files (.kernel slot) = some kernel ∧
      files (.manifest slot) = some encoded ∧ UpdateManifest.decode encoded = .ok manifest := by
  obtain ⟨kernel, found, -⟩ := slotRelease_eq_some.mp h.release
  obtain ⟨encoded, hk, hm, hd⟩ := slotFiles_eq_some.mp found
  exact ⟨kernel, encoded, hk, hm, hd⟩

theorem Admitted.wellFormed : manifest.WellFormed := by
  obtain ⟨_, _, -, -, decoded⟩ := h.exists_files
  exact (UpdateManifest.of_decode decoded).2

theorem Admitted.releaseVersion : image.releaseVersion = manifest.releaseVersion := by
  obtain ⟨_, -, -, staged⟩ := slotRelease_eq_some.mp h.release
  exact (stagedImage_fields staged).1

theorem examine_of_next_none (next : nextTrustRoot platform manifest root = none) :
    examine platform files nvram slot =
      (none, raiseFloor nvram floor manifest.releaseVersion) := by
  unfold examine
  simp only [h.active, h.release, h.known, if_neg h.atLeast, next]

theorem examine_of_next_some (well : nextTrustRoot platform manifest root = some next) :
    examine platform files nvram slot =
      (some image, adoptRoot (raiseFloor nvram floor manifest.releaseVersion) next) := by
  unfold examine
  simp only [h.active, h.release, h.known, if_neg h.atLeast, well]

end

theorem examine_of_not_admitted
    (h : ∀ root manifest image floor, ¬Admitted platform files nvram slot root manifest image floor) :
    examine platform files nvram slot = (none, nvram) := by
  unfold examine
  cases active : trustRootOf platform nvram with
  | none => rfl
  | some root =>
    dsimp only
    split
    · rename_i manifest image floor release known
      split
      · rfl
      · rename_i atLeast
        exact absurd ⟨active, release, known, atLeast⟩ (h root manifest image floor)
    · rfl

theorem admitted_or_not (platform : Platform) (files : Volume) (nvram : Nvram) (slot : SystemSlot) :
    (∃ root manifest image floor, Admitted platform files nvram slot root manifest image floor) ∨
      examine platform files nvram slot = (none, nvram) := by
  by_cases admitted : ∃ root manifest image floor,
      Admitted platform files nvram slot root manifest image floor
  · exact .inl admitted
  · exact .inr (examine_of_not_admitted fun root manifest image floor h =>
      admitted ⟨root, manifest, image, floor, h⟩)

theorem of_examine_some (h : examine platform files nvram slot = (some image, nvram')) :
    ∃ root manifest floor next, Admitted platform files nvram slot root manifest image floor ∧
      nextTrustRoot platform manifest root = some next ∧
      nvram' = adoptRoot (raiseFloor nvram floor manifest.releaseVersion) next := by
  obtain ⟨root, manifest, staged, floor, admitted⟩ | untouched :=
    admitted_or_not platform files nvram slot
  · cases well : nextTrustRoot platform manifest root with
    | none =>
      rw [examine_of_next_none admitted well] at h
      cases h
    | some next =>
      rw [examine_of_next_some admitted well] at h
      cases h
      exact ⟨root, manifest, floor, next, admitted, well, rfl⟩
  · rw [untouched] at h
    cases h

theorem releaseVersion_ne_zero (h : examine platform files nvram slot = (some image, nvram')) :
    image.releaseVersion ≠ 0 := by
  obtain ⟨root, manifest, floor, next, admitted, -⟩ := of_examine_some h
  rw [admitted.releaseVersion]
  exact admitted.wellFormed.release

theorem examine_congr (kernelFile : files' (.kernel slot) = files (.kernel slot))
    (manifestFile : files' (.manifest slot) = files (.manifest slot)) :
    examine platform files' nvram slot = examine platform files nvram slot := by
  simp only [examine, slotRelease, slotFiles, kernelFile, manifestFile]

theorem trustRootOf_keyId (active : trustRootOf platform nvram = some root) :
    root.keyId = keyIdForPublicKey platform root.publicKey := by
  unfold trustRootOf at active
  split at active
  · cases active
  split at active
  · cases active
    rfl
  · cases active
  split at active
  · cases active
  split at active
  · cases active
  split at active
  · cases active
  split at active
  · cases active
  rename_i sameId
  cases active
  exact (not_not.mp sameId).symm

end

section

variable {platform : Platform} {files : Volume} {faults : Nat → Fault} {nvram : Nvram}
  {slot : SystemSlot}

/-- How a slot's examination can fail: as `examine` says when all calls are served, and with
    one of its residues in any case. -/
def SlotFailed (platform : Platform) (files : Volume) (faults : Nat → Fault) (nvram : Nvram)
    (slot : SystemSlot) (s : Firmware) : Prop :=
  ∃ nvram', At files faults nvram' s ∧ Residue platform files nvram slot nvram' ∧
    (Served faults → examine platform files nvram slot = (none, nvram'))

theorem slotFailed_of_not_admitted (h : At files faults nvram s)
    (rejected : Served faults → ∀ root manifest image floor,
      ¬Admitted platform files nvram slot root manifest image floor) :
    SlotFailed platform files faults nvram slot s :=
  ⟨nvram, h, .untouched, fun served => examine_of_not_admitted (rejected served)⟩

/-- The second half of an examination, which writes the variables. -/
theorem commitRelease_spec (wellFormed : manifest.WellFormed)
    (active : trustRootOf platform nvram = some root)
    (release : slotRelease platform files root slot = some (manifest, image)) :
    Spec (At files faults nvram)
      (do
        enforceReleaseVersion manifest.releaseVersion
        applyTrustRootUpdate platform manifest root
        pure image)
      (fun image s => ∃ nvram', At files faults nvram' s ∧
        examine platform files nvram slot = (some image, nvram'))
      (fun _ s => SlotFailed platform files faults nvram slot s) := by
  have admitted {floor : UInt64} (known : releaseFloor nvram = some floor)
      (atLeast : ¬manifest.releaseVersion < floor) :
      Admitted platform files nvram slot root manifest image floor :=
    ⟨active, release, known, atLeast⟩
  refine Spec.bind ((enforceReleaseVersion_spec _).weaken_fail ?_) fun _ => ?_
  · rintro _ s (⟨h, below⟩ | ⟨faulty, h | ⟨floor, known, atLeast, h⟩⟩)
    · refine slotFailed_of_not_admitted h fun _ root' manifest' image' floor' contrary => ?_
      cases active.symm.trans contrary.active
      cases release.symm.trans contrary.release
      exact contrary.atLeast (below floor' contrary.known)
    · exact ⟨nvram, h, .untouched, fun served => absurd served faulty⟩
    · exact ⟨_, h, .raised (admitted known atLeast), fun served => absurd served faulty⟩
  rintro s ⟨floor, known, atLeast, h⟩
  have admitted := admitted known atLeast
  refine Spec.bind ((applyTrustRootUpdate_spec wellFormed).weaken_fail ?_)
    (fun _ => Spec.pure _ ?_) s h
  · rintro _ s (⟨h, malformed⟩ | ⟨faulty, h | ⟨next, well, h⟩⟩)
    · exact ⟨_, h, .raised admitted, fun _ => examine_of_next_none admitted malformed⟩
    · exact ⟨_, h, .raised admitted, fun served => absurd served faulty⟩
    · cases next with
      | none => exact ⟨_, h, .raised admitted, fun served => absurd served faulty⟩
      | some state => exact ⟨_, h, .adopted admitted well, fun served => absurd served faulty⟩
  · rintro s ⟨next, well, h⟩
    exact ⟨_, h, examine_of_next_some admitted well⟩

theorem found_of_read (h : some bytes = files file ∨ some bytes = none ∧ faulty) :
    files file = some bytes := by
  obtain found | ⟨impossible, -⟩ := h
  · exact found.symm
  · cases impossible

theorem loadSystemSlot_spec :
    Spec (At files faults nvram) (loadSystemSlot platform slot)
      (fun image s => ∃ nvram', At files faults nvram' s ∧
        examine platform files nvram slot = (some image, nvram'))
      (fun _ s => SlotFailed platform files faults nvram slot s) := by
  unfold loadSystemSlot
  refine Spec.bind (readFile_spec _) fun kernel => Spec.assume fun readKernel => ?_
  cases kernel with
  | none =>
    refine Spec.throw _ fun s h => slotFailed_of_not_admitted h ?_
    intro served root manifest image floor contrary
    obtain ⟨kernel, encoded, hk, -, -⟩ := contrary.exists_files
    obtain missing | ⟨-, faulty⟩ := readKernel
    · cases missing.trans hk
    · exact faulty served
  | some kernel =>
  have readKernel := found_of_read readKernel
  refine Spec.bind (readFile_spec _) fun encoded => Spec.assume fun readManifest => ?_
  cases encoded with
  | none =>
    refine Spec.throw _ fun s h => slotFailed_of_not_admitted h ?_
    intro served root manifest image floor contrary
    obtain ⟨kernel, encoded, -, hm, -⟩ := contrary.exists_files
    obtain missing | ⟨-, faulty⟩ := readManifest
    · cases missing.trans hm
    · exact faulty served
  | some encoded =>
  have readManifest := found_of_read readManifest
  dsimp only
  cases decoded : UpdateManifest.decode encoded with
  | error e =>
    refine Spec.throw_bind _ fun s h => slotFailed_of_not_admitted h ?_
    intro served root manifest image floor contrary
    obtain ⟨_, _, -, hm, hd⟩ := contrary.exists_files
    cases readManifest.symm.trans hm
    cases decoded.symm.trans hd
  | ok manifest =>
  have read := fun {root manifest' image floor}
      (h : Admitted platform files nvram slot root manifest' image floor) =>
    h.of_files readKernel readManifest decoded
  simp only [pure_bind]
  refine Spec.bind ((verifyKernelRelease_spec _ _ _).weaken_fail ?_)
    fun root => Spec.assume fun verified => ?_
  · rintro _ s ⟨h, unverified | faulty⟩
    · exact slotFailed_of_not_admitted h fun _ root manifest image floor contrary =>
        unverified root contrary.active (read contrary).2.1
    · exact slotFailed_of_not_admitted h fun served => absurd served faulty
  obtain ⟨active, verified⟩ := verified
  cases parsed : parseKernelImage platform kernel with
  | none =>
    refine Spec.throw _ fun s h => slotFailed_of_not_admitted h ?_
    intro _ root manifest image floor contrary
    have staged := (read contrary).2.2
    simp [stagedImage, parsed] at staged
  | some info =>
  have whole : stagedImage platform kernel manifest =
      stageKernelSegments platform
        { info with
          releaseVersion := manifest.releaseVersion
          signatureVerified := 1
          verificationKeyId := manifest.keyId
          kernelSha256 := manifest.kernelSha256 } kernel := by
    simp only [stagedImage, parsed]
  refine Spec.bind (stageServed_spec _ _ _) fun staged => Spec.assume fun served => ?_
  rw [← whole] at served
  cases staged with
  | none =>
    refine Spec.throw _ fun s h => slotFailed_of_not_admitted h ?_
    intro all root manifest image floor contrary
    obtain failed | ⟨-, faulty⟩ := served
    · cases failed.trans (read contrary).2.2
    · exact faulty all
  | some image =>
    have staged : stagedImage platform kernel manifest = some image := by
      obtain staged | ⟨impossible, -⟩ := served
      · exact staged.symm
      · cases impossible
    have found : slotFiles files slot = some (kernel, manifest) :=
      slotFiles_eq_some.mpr ⟨encoded, readKernel, readManifest, decoded⟩
    exact commitRelease_spec (UpdateManifest.of_decode decoded).2 active
      (slotRelease_eq_some.mpr ⟨kernel, found, verified, staged⟩)

theorem loadSystemSlot_at (served : Served faults) (h : At files faults nvram s) :
    (outcome (loadSystemSlot platform slot) s).toOption = (examine platform files nvram slot).1 ∧
      At files faults (examine platform files nvram slot).2 (after (loadSystemSlot platform slot) s) := by
  have spec : Spec (At files faults nvram) (loadSystemSlot platform slot) _ _ := loadSystemSlot_spec
  have run := spec s h
  cases result : (loadSystemSlot platform slot).run s with
  | ok image s' =>
    rw [result] at run
    obtain ⟨nvram', holds, examined⟩ := run
    rw [outcome_ok result, after_ok result, examined]
    exact ⟨rfl, holds⟩
  | error e s' =>
    rw [result] at run
    obtain ⟨nvram', holds, -, examined⟩ := run
    rw [outcome_error result, after_error result, examined served]
    exact ⟨rfl, holds⟩

theorem outcome_loadSystemSlot (served : Served faults) (h : At files faults nvram s) :
    outcome (loadSystemSlot platform slot) s = .ok image ↔
      (examine platform files nvram slot).1 = some image := by
  rw [← (loadSystemSlot_at served h).1]
  cases outcome (loadSystemSlot platform slot) s with
  | ok found => simp [Except.toOption]
  | error e => simp [Except.toOption]

end

end CodexOS.Release
