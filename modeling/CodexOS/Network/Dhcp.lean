import CodexOS.Network.Frames
import Mathlib.Data.List.Induction

/-! # The options of a DHCP message

A list of items: padding, or an option with its code, its length and its value. The byte
255 ends the list. Later items override earlier ones.
-/

namespace CodexOS.Network

open Bytes

structure DhcpOptions where
  messageType : Option UInt8 := none
  subnetMask : Option Ipv4Address := none
  gateway : Option Ipv4Address := none
  dnsServer : Option Ipv4Address := none
  server : Option Ipv4Address := none
  leaseSeconds : Option UInt32 := none
  deriving DecidableEq

/-- The slice pattern `[a]`. -/
def oneByte : Bytes → Option UInt8
  | [a] => some a
  | _ => none

/-- The body of the loop of `parse_dhcp_options` for one option: a value that its pattern does not
    match leaves the field as it is. -/
def DhcpOptions.enter (options : DhcpOptions) (code : UInt8) (value : Bytes) : DhcpOptions :=
  if code = 53 then { options with messageType := (oneByte value).or options.messageType }
  else if code = 1 then { options with subnetMask := (fourBytes value).or options.subnetMask }
  else if code = 3 then { options with gateway := (firstFourBytes value).or options.gateway }
  else if code = 6 then { options with dnsServer := (firstFourBytes value).or options.dnsServer }
  else if code = 54 then { options with server := (fourBytes value).or options.server }
  else if code = 51 then
    { options with leaseSeconds := ((fourBytes value).map fromBeBytes).or options.leaseSeconds }
  else options

/-- The loop of `parse_dhcp_options`, on the bytes from the cursor on. -/
def parseDhcpOptionsFrom (options : DhcpOptions) : Bytes → Checked DhcpOptions
  | [] => malformed
  | code :: bytes =>
    if code = 0 then parseDhcpOptionsFrom options bytes
    else if code = 255 then .ok options
    else
      match bytes with
      | [] => malformed
      | length :: bytes =>
        if length.toNat ≤ bytes.length then
          parseDhcpOptionsFrom (options.enter code (bytes.take length.toNat))
            (bytes.drop length.toNat)
        else malformed
termination_by bytes => bytes.length
decreasing_by
  · exact Nat.lt_succ_self _
  · simp only [List.length_drop, List.length_cons]
    exact Nat.lt_succ_of_le (Nat.le_succ_of_le (Nat.sub_le _ _))

def parseDhcpOptions (bytes : Bytes) : Checked DhcpOptions :=
  parseDhcpOptionsFrom {} bytes

/-- The output and the cursor that `write_option` leaves. -/
def writeOption (output : Bytes) (cursor : Nat) (code : UInt8) (value : Bytes) : Bytes × Nat :=
  let output := put output cursor [code, .ofNat value.length]
  (put output (cursor + 2) value, cursor + 2 + value.length)

inductive DhcpItem
  | pad
  | option (code : UInt8) (value : Bytes) (isCode : code ≠ 0 ∧ code ≠ 255)
      (short : value.length ≤ 255)

namespace DhcpItem

def bytes : DhcpItem → Bytes
  | pad => [0]
  | option code value _ _ => (writeOption (zeros (2 + value.length)) 0 code value).1

theorem bytes_option (code : UInt8) (value : Bytes) (isCode : code ≠ 0 ∧ code ≠ 255)
    (short : value.length ≤ 255) :
    (option code value isCode short).bytes = code :: .ofNat value.length :: value := by
  have whole : slice (put (zeros (2 + value.length)) 0 (code :: .ofNat value.length :: value)) 0
      (2 + value.length) = code :: .ofNat value.length :: value :=
    slice_put_same (Nat.add_comm _ 2) (by simp)
  rw [slice_self (by simp)] at whole
  exact (put_append _ [code, .ofNat value.length] value 0).trans whole

/-- The value of an option with this code, if it has an accepted form. -/
def value? {β : Type} (code : UInt8) (read : Bytes → Option β) : DhcpItem → Option β
  | pad => none
  | option code' value _ _ => if code' = code then read value else none

end DhcpItem

/-- The last accepted value. -/
def lastValue {β : Type} (code : UInt8) (read : Bytes → Option β) (items : List DhcpItem) :
    Option β :=
  items.reverse.findSome? (DhcpItem.value? code read)

/-- What a list of items says. -/
def optionsOf (items : List DhcpItem) : DhcpOptions where
  messageType := lastValue 53 oneByte items
  subnetMask := lastValue 1 fourBytes items
  gateway := lastValue 3 firstFourBytes items
  dnsServer := lastValue 6 firstFourBytes items
  server := lastValue 54 fourBytes items
  leaseSeconds := lastValue 51 (fun value => (fourBytes value).map fromBeBytes) items

def DhcpOptions.enterItem (options : DhcpOptions) : DhcpItem → DhcpOptions
  | .pad => options
  | .option code value _ _ => options.enter code value

theorem lastValue_concat {β : Type} (code : UInt8) (read : Bytes → Option β)
    (items : List DhcpItem) (item : DhcpItem) :
    lastValue code read (items ++ [item]) =
      (item.value? code read).or (lastValue code read items) := by
  simp only [lastValue, List.reverse_concat, List.findSome?_cons]
  cases item.value? code read <;> rfl

theorem optionsOf_concat (items : List DhcpItem) (item : DhcpItem) :
    optionsOf (items ++ [item]) = (optionsOf items).enterItem item := by
  simp only [optionsOf, lastValue_concat, DhcpOptions.enterItem]
  cases item with
  | pad => simp [DhcpItem.value?]
  | option code value =>
    simp only [DhcpItem.value?, DhcpOptions.enter]
    split_ifs <;> simp_all

theorem foldl_enterItem (items : List DhcpItem) : items.foldl .enterItem {} = optionsOf items := by
  induction items using List.reverseRecOn with
  | nil => rfl
  | append_singleton items item ih => rw [List.foldl_concat, ih, optionsOf_concat]

theorem parseDhcpOptionsFrom_bytes (items : List DhcpItem) (options : DhcpOptions) (rest : Bytes) :
    parseDhcpOptionsFrom options (items.flatMap DhcpItem.bytes ++ 255 :: rest) =
      .ok (items.foldl .enterItem options) := by
  induction items generalizing options with
  | nil => simp [parseDhcpOptionsFrom.eq_def]
  | cons item items ih =>
    rw [List.flatMap_cons, List.append_assoc, List.foldl_cons]
    cases item with
    | pad =>
      rw [DhcpItem.bytes, List.singleton_append, parseDhcpOptionsFrom.eq_def]
      exact ih options
    | option code value isCode short =>
      have length : (UInt8.ofNat value.length).toNat = value.length :=
        UInt8.toNat_ofNat_of_lt' (Nat.lt_succ_of_le short)
      rw [DhcpItem.bytes_option, List.cons_append, List.cons_append, parseDhcpOptionsFrom.eq_def]
      simp [isCode, length, ih, DhcpOptions.enterItem]

/-- What is not refused is a list of items. -/
theorem parseDhcpOptionsFrom_cases (options : DhcpOptions) (bytes : Bytes) :
    parseDhcpOptionsFrom options bytes = malformed ∨
      ∃ (items : List DhcpItem) (rest : Bytes),
        bytes = items.flatMap DhcpItem.bytes ++ 255 :: rest := by
  fun_induction parseDhcpOptionsFrom options bytes with
  | case1 => exact .inl rfl
  | case2 options bytes ih =>
    refine ih.imp_right fun ⟨items, rest, same⟩ => ⟨.pad :: items, rest, ?_⟩
    simp [same, DhcpItem.bytes]
  | case3 options bytes => exact .inr ⟨[], bytes, rfl⟩
  | case4 => exact .inl rfl
  | case5 options code notPad notEnd length bytes long ih =>
    refine ih.imp_right fun ⟨items, rest, same⟩ =>
      ⟨.option code (bytes.take length.toNat) ⟨notPad, notEnd⟩ ?_ :: items, rest, ?_⟩
    · have small := length.toNat_lt
      simp only [List.length_take]
      omega
    · simp [DhcpItem.bytes_option, ← same, Nat.min_eq_left long]
  | case6 => exact .inl rfl

/-- A list of items is read as what it says, and everything else is refused. -/
theorem dhcp_option_grammar :
    (∀ (items : List DhcpItem) (rest : Bytes),
      parseDhcpOptions (items.flatMap DhcpItem.bytes ++ 255 :: rest) = .ok (optionsOf items)) ∧
    ∀ bytes, parseDhcpOptions bytes = malformed ↔
      ¬∃ (items : List DhcpItem) (rest : Bytes),
        bytes = items.flatMap DhcpItem.bytes ++ 255 :: rest := by
  have reads (items : List DhcpItem) (rest : Bytes) :
      parseDhcpOptions (items.flatMap DhcpItem.bytes ++ 255 :: rest) = .ok (optionsOf items) := by
    rw [parseDhcpOptions, parseDhcpOptionsFrom_bytes, foldl_enterItem]
  refine ⟨reads, fun bytes => ⟨?_, (parseDhcpOptionsFrom_cases _ bytes).resolve_right⟩⟩
  rintro refused ⟨items, rest, rfl⟩
  rw [reads] at refused
  cases refused

end CodexOS.Network
