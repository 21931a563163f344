/-!
# Valid UTF-8

A scanner reads bytes one at a time. Between characters it owes nothing; inside one
it knows how many continuation bytes are owed and in which range the next must lie.
The narrowed ranges after some leading bytes exclude overlong forms, surrogates and
code points past the last one.
-/
namespace Utf8

open List Option

/-- The continuation bytes still owed, and the range of the next one. -/
structure Scanner where
  owed : Nat := 0
  low : UInt8 := 0x80
  high : UInt8 := 0xBF
  deriving DecidableEq

/-- The scanner after the leading byte of a character. -/
def lead (byte : UInt8) : Option Scanner :=
  if byte < 0x80 then some {}
  else if byte < 0xC2 then none
  else if byte < 0xE0 then some { owed := 1 }
  else if byte < 0xF0 then
    some { owed := 2, low := if byte = 0xE0 then 0xA0 else 0x80
           high := if byte = 0xED then 0x9F else 0xBF }
  else if byte < 0xF5 then
    some { owed := 3, low := if byte = 0xF0 then 0x90 else 0x80
           high := if byte = 0xF4 then 0x8F else 0xBF }
  else none

/-- The scanner after one more byte, unless that byte cannot stand there. -/
def Scanner.next (scanner : Scanner) (byte : UInt8) : Option Scanner :=
  match scanner.owed with
  | 0 => lead byte
  | owed + 1 =>
      if scanner.low ≤ byte ∧ byte ≤ scanner.high then some { owed := owed } else none

/-- The scanner after a list of bytes. -/
def Scanner.scan : Scanner → List UInt8 → Option Scanner
  | scanner, [] => some scanner
  | scanner, byte :: rest => (scanner.next byte).bind fun following => following.scan rest

/-- The bytes are the encoding of a list of characters. -/
def valid (bytes : List UInt8) : Bool :=
  match ({} : Scanner).scan bytes with
  | some scanner => scanner.owed = 0
  | none => false

open Scanner

/-- Scanning goes on where it stopped. -/
theorem Scanner.scan_append (scanner : Scanner) (first second : List UInt8) :
    scanner.scan (first ++ second) =
      (scanner.scan first).bind fun middle => middle.scan second := by
  induction first generalizing scanner with
  | nil => rfl
  | cons byte rest ih =>
    cases moved : scanner.next byte with
    | none => simp [scan, moved]
    | some following => simp [scan, moved, ih]

/-- A scanner that owes nothing behind a byte is between characters. -/
theorem Scanner.next_between (scanner following : Scanner) (byte : UInt8)
    (moved : scanner.next byte = some following) (done : following.owed = 0) : following = {} := by
  unfold next at moved
  split at moved
  · unfold lead at moved
    split at moved
    · exact (some.inj moved).symm
    split at moved
    · cases moved
    -- Every other leading byte leaves something owed.
    split at moved
    · cases moved
      cases done
    split at moved
    · cases moved
      cases done
    split at moved <;> cases moved
    cases done
  · split at moved <;> cases moved
    exact congrArg (fun owed => ({ owed := owed } : Scanner)) done

theorem Scanner.scan_between (scanner last : Scanner) (bytes : List UInt8)
    (between : scanner.owed = 0 → scanner = {}) (ran : scanner.scan bytes = some last)
    (done : last.owed = 0) : last = {} := by
  induction bytes generalizing scanner with
  | nil =>
    cases ran
    exact between done
  | cons byte rest ih =>
    obtain ⟨following, moved, ran⟩ := bind_eq_some_iff.mp ran
    exact ih following (scanner.next_between following byte moved) ran

theorem valid_iff (bytes : List UInt8) :
    valid bytes = true ↔ ({} : Scanner).scan bytes = some {} := by
  unfold valid
  constructor
  · intro accepted
    cases ran : ({} : Scanner).scan bytes with
    | none => simp [ran] at accepted
    | some last =>
      have done : last.owed = 0 := by simpa [ran] using accepted
      rw [scan_between {} last bytes (fun _ => rfl) ran done]
  · intro ran
    simp [ran]

theorem valid_nil : valid [] = true := rfl

/-- Valid texts can be put together. -/
theorem valid_append {first second : List UInt8} (left : valid first = true)
    (right : valid second = true) : valid (first ++ second) = true := by
  rw [valid_iff] at left right ⊢
  rw [scan_append, left]
  exact right

theorem valid_flatMap {Value : Type} {encode : Value → List UInt8} {values : List Value}
    (each : ∀ value ∈ values, valid (encode value) = true) :
    valid (values.flatMap encode) = true := by
  induction values with
  | nil => rfl
  | cons value rest ih =>
    have later : valid (rest.flatMap encode) = true :=
      ih fun other member => each other (mem_cons_of_mem value member)
    exact valid_append (each value mem_cons_self) later

theorem toNat_byte {number : Nat} (byte : number < 256) : (UInt8.ofNat number).toNat = number := by
  rw [UInt8.toNat_ofNat']
  omega

/-- The leading byte, by its number. -/
theorem lead_ofNat (number : Nat) (byte : number < 256) :
    lead (UInt8.ofNat number) =
      if number < 0x80 then some {}
      else if number < 0xC2 then none
      else if number < 0xE0 then some { owed := 1 }
      else if number < 0xF0 then
        some { owed := 2, low := if number = 0xE0 then 0xA0 else 0x80
               high := if number = 0xED then 0x9F else 0xBF }
      else if number < 0xF5 then
        some { owed := 3, low := if number = 0xF0 then 0x90 else 0x80
               high := if number = 0xF4 then 0x8F else 0xBF }
      else none := by
  simp only [lead, UInt8.lt_iff_toNat_lt, ← UInt8.toNat_inj, toNat_byte byte, UInt8.reduceToNat]

/-- A byte in the expected range is taken as a continuation. -/
theorem Scanner.next_tail (owed number : Nat) (low high : UInt8) (byte : number < 256)
    (above : low.toNat ≤ number) (below : number ≤ high.toNat) :
    (⟨owed + 1, low, high⟩ : Scanner).next (UInt8.ofNat number) = some { owed := owed } := by
  have least : low ≤ UInt8.ofNat number := by
    rw [UInt8.le_iff_toNat_le, toNat_byte byte]
    exact above
  have most : UInt8.ofNat number ≤ high := by
    rw [UInt8.le_iff_toNat_le, toNat_byte byte]
    exact below
  simp [next, least, most]

/-- The encoding of a character is valid: each of its bytes lies where the scanner expects
it. -/
theorem valid_encodeChar (char : Char) : valid (String.utf8EncodeChar char) = true := by
  rw [valid_iff]
  have scalar : char.val.toNat < 0xD800 ∨ 0xDFFF < char.val.toNat ∧ char.val.toNat < 0x110000 :=
    char.valid
  simp only [String.utf8EncodeChar]
  generalize char.val.toNat = v at scalar
  have tail : ∀ number, number < 64 → ∀ owed, (⟨owed + 1, 0x80, 0xBF⟩ : Scanner).next
      (UInt8.ofNat (number + 128)) = some { owed := owed } := by
    intro number small owed
    have above : (0x80 : UInt8).toNat ≤ number + 128 := Nat.le_add_left 128 number
    have below : number + 128 ≤ (0xBF : UInt8).toNat := Nat.add_le_add_right (by omega) 128
    exact next_tail owed _ 0x80 0xBF (by omega) above below
  have last : ({ owed := 1 } : Scanner).next (UInt8.ofNat (v % 64 + 128)) = some {} :=
    tail (v % 64) (by omega) 0
  have start : ∀ byte, ({} : Scanner).next byte = lead byte := fun _ => rfl
  split
  · have first : lead (UInt8.ofNat v) = some {} := by
      rw [lead_ofNat v (by omega), if_pos (by omega)]
    simp [scan, start, first]
  split
  · have first : lead (UInt8.ofNat (v / 64 % 32 + 192)) = some { owed := 1 } := by
      rw [lead_ofNat _ (by omega), if_neg (by omega), if_neg (by omega), if_pos (by omega)]
    simp only [scan, start, first, last, bind_some]
  split
  · have first := lead_ofNat (v / 4096 % 16 + 224) (by omega)
    rw [if_neg (by omega), if_neg (by omega), if_neg (by omega), if_pos (by omega)] at first
    -- The first continuation is narrowed against overlong forms and surrogates.
    have above : UInt8.toNat (if v / 4096 % 16 + 224 = 0xE0 then 0xA0 else 0x80) ≤
        v / 64 % 64 + 128 := by
      rw [apply_ite UInt8.toNat]
      split <;> simp only [UInt8.reduceToNat] <;> omega
    have below : v / 64 % 64 + 128 ≤
        UInt8.toNat (if v / 4096 % 16 + 224 = 0xED then 0x9F else 0xBF) := by
      rw [apply_ite UInt8.toNat]
      split <;> simp only [UInt8.reduceToNat] <;> omega
    have second : next ⟨2, _, _⟩ _ = some { owed := 1 } :=
      next_tail 1 (v / 64 % 64 + 128) _ _ (by omega) above below
    simp only [scan, start, first, second, last, bind_some]
  · have third : ({ owed := 2 } : Scanner).next (UInt8.ofNat (v / 64 % 64 + 128)) =
      some { owed := 1 } := tail (v / 64 % 64) (by omega) 1
    have first := lead_ofNat (v / 262144 % 8 + 240) (by omega)
    rw [if_neg (by omega), if_neg (by omega), if_neg (by omega), if_neg (by omega),
      if_pos (by omega)] at first
    -- The first continuation is narrowed against overlong forms and numbers past the last.
    have above : UInt8.toNat (if v / 262144 % 8 + 240 = 0xF0 then 0x90 else 0x80) ≤
        v / 4096 % 64 + 128 := by
      rw [apply_ite UInt8.toNat]
      split <;> simp only [UInt8.reduceToNat] <;> omega
    have below : v / 4096 % 64 + 128 ≤
        UInt8.toNat (if v / 262144 % 8 + 240 = 0xF4 then 0x8F else 0xBF) := by
      rw [apply_ite UInt8.toNat]
      split <;> simp only [UInt8.reduceToNat] <;> omega
    have second : next ⟨3, _, _⟩ _ = some { owed := 2 } :=
      next_tail 2 (v / 4096 % 64 + 128) _ _ (by omega) above below
    simp only [scan, start, first, second, third, last, bind_some]

theorem toList_loop (bytes : ByteArray) (left index : Nat) (read : List UInt8)
    (enough : bytes.size - index = left) :
    ByteArray.toList.loop bytes index read = read.reverse ++ bytes.data.toList.drop index := by
  induction left generalizing index read with
  | zero =>
    unfold ByteArray.toList.loop
    have elapsed : bytes.data.toList.length ≤ index := by
      rw [Array.length_toList]
      exact Nat.le_of_sub_eq_zero enough
    rw [if_neg (by omega), drop_eq_nil_of_le elapsed, append_nil]
  | succ left ih =>
    unfold ByteArray.toList.loop
    have inside : index < bytes.data.toList.length := by
      rw [Array.length_toList]
      change index < bytes.size
      omega
    have found : bytes.get! index = bytes.data.toList[index] := by
      have bound : index < bytes.data.size := by simpa using inside
      change bytes.data[index]! = _
      rw [getElem!_pos bytes.data index bound, Array.getElem_toList]
    rw [if_pos (by omega), ih (index + 1) _ (by omega), drop_eq_getElem_cons inside, found]
    simp

/-- The bytes of a string are valid. -/
theorem valid_string (value : String) : valid value.toUTF8.toList = true := by
  have bytes : value.toUTF8.toList = value.toList.flatMap String.utf8EncodeChar := by
    have encoded : value.toUTF8 = value.toList.utf8Encode := String.utf8Encode_toList.symm
    rw [encoded, ByteArray.toList, toList_loop _ _ 0 [] rfl]
    exact toList_data_toByteArray
  rw [bytes]
  exact valid_flatMap fun char _ => valid_encodeChar char

variable {bytes : List UInt8}

/-- A scanner that owes bytes gets them from the next ones. -/
theorem Scanner.scan_owed {scanner : Scanner} {owed : Nat}
    (owes : scanner.owed = owed + 1) (ran : scanner.scan bytes = some {}) :
    owed + 1 ≤ bytes.length ∧ scanner.scan (bytes.take (owed + 1)) = some {} := by
  induction owed generalizing scanner bytes with
  | zero =>
    cases bytes with
    | nil =>
      cases ran
      cases owes
    | cons byte rest =>
      obtain ⟨following, moved, -⟩ := bind_eq_some_iff.mp ran
      have done : following = {} := by
        simp only [next, owes] at moved
        split at moved
        · exact (some.inj moved).symm
        · cases moved
      subst done
      simp [scan, moved]
  | succ owed ih =>
    cases bytes with
    | nil =>
      cases ran
      cases owes
    | cons byte rest =>
      obtain ⟨following, moved, ran⟩ := bind_eq_some_iff.mp ran
      have left : following.owed = owed + 1 := by
        simp only [next, owes] at moved
        split at moved
        · rw [← some.inj moved]
        · cases moved
      obtain ⟨enough, taken⟩ := ih left ran
      exact ⟨Nat.succ_le_succ enough, by simpa [scan, moved] using taken⟩

theorem lead_owed {byte : UInt8} {scanner : Scanner} (led : lead byte = some scanner) :
    scanner = {} ∨ ∃ owed ≤ 2, scanner.owed = owed + 1 := by
  unfold lead at led
  split at led
  · exact .inl (some.inj led).symm
  split at led
  · cases led
  split at led
  · cases led
    exact .inr ⟨0, by decide, rfl⟩
  split at led
  · cases led
    exact .inr ⟨1, by decide, rfl⟩
  split at led <;> cases led
  exact .inr ⟨2, by decide, rfl⟩

/-- A text begins with a whole character of at most four bytes. -/
theorem valid_first (accepted : valid bytes = true) (some_byte : bytes ≠ []) :
    ∃ size, 1 ≤ size ∧ size ≤ 4 ∧ size ≤ bytes.length ∧ valid (bytes.take size) = true := by
  rw [valid_iff] at accepted
  cases bytes with
  | nil => exact absurd rfl some_byte
  | cons byte rest =>
    obtain ⟨scanner, moved, ran⟩ := bind_eq_some_iff.mp accepted
    obtain rfl | ⟨owed, few, owes⟩ := lead_owed moved
    · refine ⟨1, Nat.le_refl 1, by decide, by simp, (valid_iff _).mpr ?_⟩
      simp [scan, moved]
    · obtain ⟨enough, taken⟩ := scan_owed owes ran
      refine ⟨owed + 2, by omega, by omega, by simpa using enough, (valid_iff _).mpr ?_⟩
      simpa [scan, moved] using taken

/-- What is behind a whole number of characters is valid. -/
theorem valid_drop {size : Nat} (accepted : valid bytes = true)
    (front : valid (bytes.take size) = true) : valid (bytes.drop size) = true := by
  rw [valid_iff] at accepted front ⊢
  rw [← take_append_drop size bytes, scan_append, front] at accepted
  exact accepted

/-- Less than four bytes before every length a character ends. -/
theorem valid_near {limit : Nat} (accepted : valid bytes = true)
    (inside : limit ≤ bytes.length) :
    ∃ size ≤ limit, limit < size + 4 ∧ valid (bytes.take size) = true := by
  induction limit using Nat.strongRecOn generalizing bytes with
  | ind limit ih =>
  by_cases small : limit < 4
  · exact ⟨0, Nat.zero_le _, by omega, rfl⟩
  obtain ⟨first, some_byte, few, -, whole⟩ := valid_first accepted (by
    rintro rfl
    exact small (Nat.lt_of_le_of_lt inside (by decide)))
  obtain ⟨size, within, near, rest⟩ := ih (limit - first) (by omega) (valid_drop accepted whole)
    (by rw [length_drop]; omega)
  refine ⟨first + size, by omega, by omega, ?_⟩
  rw [take_add]
  exact valid_append whole rest

end Utf8
