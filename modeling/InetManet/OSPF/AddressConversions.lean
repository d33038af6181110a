import InetManet.Network.IPAddressText
import InetManet.OSPF.RoutingTable

/-!
# The address conversions of OSPF

An address is four bytes, an unsigned long of 64 bits, or dotted decimal text. Shifting a byte promotes it
to an `int`, so that the sum of the shifted bytes is an `int` of 32 bits, and its sign is extended when it
becomes an unsigned long: the upper half of the address space does not come back. The sign extension keeps
the order of the addresses among each other.
-/

namespace InetManet.OSPF.Common

@[ext]
structure IPv4Address where
  byte0 : BitVec 8
  byte1 : BitVec 8
  byte2 : BitVec 8
  byte3 : BitVec 8
deriving DecidableEq

def nullIPv4Address : IPv4Address := ⟨0, 0, 0, 0⟩

/-- A byte as an `int`. -/
def promote (byte : BitVec 8) : BitVec 32 := byte.setWidth 32

namespace IPv4Address

/-- `(bytes[0]<<24) | bytes[1]<<16 | bytes[2]<<8 | bytes[3]`. -/
def asInt (a : IPv4Address) : BitVec 32 :=
  IPAddress.setBytes (promote a.byte0) (promote a.byte1) (promote a.byte2) (promote a.byte3)

instance : LT IPv4Address := ⟨fun a b ↦ a.asInt < b.asInt⟩

instance (a b : IPv4Address) : Decidable (a < b) := inferInstanceAs (Decidable (a.asInt < b.asInt))

/-- `bytes[n] += d`. -/
def addToByte (a : IPv4Address) (n : ℕ) (d : ℤ) : IPv4Address :=
  match n with
  | 0 => { a with byte0 := a.byte0 + BitVec.ofInt 8 d }
  | 1 => { a with byte1 := a.byte1 + BitVec.ofInt 8 d }
  | 2 => { a with byte2 := a.byte2 + BitVec.ofInt 8 d }
  | _ => { a with byte3 := a.byte3 + BitVec.ofInt 8 d }

/-- The address as a number. -/
def value (a : IPv4Address) : ℕ :=
  256 * (256 * (256 * a.byte0.toNat + a.byte1.toNat) + a.byte2.toNat) + a.byte3.toNat

end IPv4Address

/-! ## Unsigned long -/

def ipv4AddressFromULong (longForm : BitVec 64) : IPv4Address where
  byte0 := ((longForm &&& 0xFF000000) >>> 24).setWidth 8
  byte1 := ((longForm &&& 0x00FF0000) >>> 16).setWidth 8
  byte2 := ((longForm &&& 0x0000FF00) >>> 8).setWidth 8
  byte3 := (longForm &&& 0x000000FF).setWidth 8

/-- The sum is an `int`. -/
def uLongFromIPv4Address (byteForm : IPv4Address) : BitVec 64 :=
  ((promote byteForm.byte0 <<< 24) + (promote byteForm.byte1 <<< 16) + (promote byteForm.byte2 <<< 8) +
    promote byteForm.byte3).signExtend 64

/-! ## Text -/

/-- `charForm[i]`; behind the last character comes the terminator. -/
def charAt (charForm : List Char) (i : ℕ) : Char := charForm.getD i '\x00'

/-- `charForm[i] - '0'`. -/
def digitAt (charForm : List Char) (i : ℕ) : ℤ := (charAt charForm i).toNat - '0'.toNat

/-- The `switch` on the number of digits before `i`. Its cases fall through. -/
def addDigits (charForm : List Char) (i : ℕ) (digits : ℤ) (byteCount : ℕ) (byteForm : IPv4Address) :
    IPv4Address :=
  if digits = 3 then
    ((byteForm.addToByte byteCount
      ((if digitAt charForm (i - 3) < 3 then digitAt charForm (i - 3) else 0) * 100)).addToByte byteCount
        (digitAt charForm (i - 2) * 10)).addToByte byteCount (digitAt charForm (i - 1))
  else if digits = 2 then
    (byteForm.addToByte byteCount (digitAt charForm (i - 2) * 10)).addToByte byteCount
      (digitAt charForm (i - 1))
  else if digits = 1 then byteForm.addToByte byteCount (digitAt charForm (i - 1))
  else byteForm

/-- The variables of the loop. -/
structure Scan where
  byteForm : IPv4Address := nullIPv4Address
  lastDot : ℤ := -1
  byteCount : ℕ := 0

namespace Scan

/-- The digits between the last dot and `i`. -/
def digitsBefore (s : Scan) (i : ℕ) : ℤ := i - s.lastDot - 1

def addDigits (s : Scan) (charForm : List Char) (i : ℕ) : IPv4Address :=
  Common.addDigits charForm i (s.digitsBefore i) s.byteCount s.byteForm

/-- The dot at `i` ends a number. -/
def passDot (s : Scan) (charForm : List Char) (i : ℕ) : Scan where
  byteForm := s.addDigits charForm i
  lastDot := i
  byteCount := s.byteCount + 1

/-- The loop from `i` on, with `rounds` rounds left. -/
def loop (charForm : List Char) : ℕ → ℕ → Scan → IPv4Address
  | 0, _, s => s.byteForm
  | rounds + 1, i, s =>
    if charAt charForm i = '\x00' then
      if s.byteCount ≤ 3 ∧ s.digitsBefore i ≤ 3 then s.addDigits charForm i else s.byteForm
    else if ¬ (charAt charForm i).isDigit ∧ charAt charForm i ≠ '.' then s.byteForm
    else if charAt charForm i = '.' then
      if i = 0 then s.byteForm
      else if 3 < s.digitsBefore i then s.byteForm
      else if 3 < (s.passDot charForm i).byteCount then (s.passDot charForm i).byteForm
      else loop charForm rounds (i + 1) (s.passDot charForm i)
    else loop charForm rounds (i + 1) s

end Scan

def ipv4AddressFromAddressString (charForm : List Char) : IPv4Address := Scan.loop charForm 16 0 {}

def uLongFromAddressString (charForm : List Char) : BitVec 64 :=
  uLongFromIPv4Address (ipv4AddressFromAddressString charForm)

/-- `sprintf` with `"%d.%d.%d.%d"`. -/
def dotted (b0 b1 b2 b3 : BitVec 32) : List Char :=
  IPAddress.printNumber b0 ++ '.' :: (IPAddress.printNumber b1 ++ '.' :: (IPAddress.printNumber b2 ++
    '.' :: IPAddress.printNumber b3))

/-- A buffer that is too short gives a null pointer. -/
def addressStringFromIPv4Address (bufferLength : ℤ) (byteForm : IPv4Address) : Option (List Char) :=
  if bufferLength < 16 then none
  else some (dotted (promote byteForm.byte0) (promote byteForm.byte1) (promote byteForm.byte2)
    (promote byteForm.byte3))

def addressStringFromULong (bufferLength : ℤ) (longForm : BitVec 64) : Option (List Char) :=
  if bufferLength < 16 then none
  else some (dotted (((longForm &&& 0xFF000000) >>> 24).setWidth 32)
    (((longForm &&& 0x00FF0000) >>> 16).setWidth 32) (((longForm &&& 0x0000FF00) >>> 8).setWidth 32)
    ((longForm &&& 0x000000FF).setWidth 32))

/-! ## Addresses as numbers -/

section Values

variable {a b : IPv4Address} {x : BitVec 64}

theorem IPv4Address.value_lt (a : IPv4Address) : a.value < 2 ^ 32 := by
  unfold value
  omega

theorem IPv4Address.value_inj (h : a.value = b.value) : a = b := by
  unfold value at h
  apply IPv4Address.ext
  · exact BitVec.eq_of_toNat_eq (by omega)
  · exact BitVec.eq_of_toNat_eq (by omega)
  · exact BitVec.eq_of_toNat_eq (by omega)
  · exact BitVec.eq_of_toNat_eq (by omega)

theorem promote_eq (byte : BitVec 8) : promote byte = BitVec.ofNat 32 byte.toNat := by
  apply BitVec.eq_of_toNat_eq
  rw [promote, BitVec.toNat_setWidth, BitVec.toNat_ofNat]

theorem toNat_promote (byte : BitVec 8) : (promote byte).toNat = byte.toNat := by
  rw [promote, BitVec.toNat_setWidth]
  omega

theorem IPv4Address.asInt_eq (a : IPv4Address) : a.asInt = BitVec.ofNat 32 a.value := by
  rw [asInt, promote_eq, promote_eq, promote_eq, promote_eq,
    IPAddress.setBytes_ofNat (by omega) (by omega) (by omega) (by omega)]
  rfl

theorem IPv4Address.toNat_asInt (a : IPv4Address) : a.asInt.toNat = a.value := by
  rw [a.asInt_eq, BitVec.toNat_ofNat, Nat.mod_eq_of_lt a.value_lt]

/-- Added up or combined bit by bit, the bytes give the same number. -/
theorem uLongFromIPv4Address_eq (a : IPv4Address) : uLongFromIPv4Address a = a.asInt.signExtend 64 := by
  unfold uLongFromIPv4Address
  congr 1
  apply BitVec.eq_of_toNat_eq
  rw [a.toNat_asInt]
  simp only [BitVec.toNat_add, BitVec.toNat_shiftLeft, toNat_promote, Nat.shiftLeft_eq,
    IPv4Address.value]
  omega

theorem IPv4Address.lt_iff : a < b ↔ a.value < b.value := by
  change a.asInt < b.asInt ↔ _
  rw [BitVec.lt_def, a.toNat_asInt, b.toNat_asInt]

/-- The upper half of the address space ends up at the end of the 64-bit numbers. -/
theorem toNat_uLongFromIPv4Address (a : IPv4Address) :
    (uLongFromIPv4Address a).toNat = if a.value < 2 ^ 31 then a.value else a.value + (2 ^ 64 - 2 ^ 32) := by
  have hlt := a.value_lt
  rw [uLongFromIPv4Address_eq, BitVec.toNat_signExtend, BitVec.toNat_setWidth, BitVec.msb_eq_decide,
    a.toNat_asInt, Nat.mod_eq_of_lt (by omega)]
  by_cases hlow : a.value < 2 ^ 31
  · rw [decide_eq_false (not_le.mpr hlow), if_pos hlow]
    rfl
  · rw [decide_eq_true (not_lt.mp hlow), if_neg hlow]
    rfl

theorem and_mask_shiftRight (n i : ℕ) : (n &&& 255 <<< i) >>> i = n / 2 ^ i % 256 := by
  rw [Nat.shiftRight_and_distrib, Nat.shiftLeft_shiftRight, Nat.shiftRight_eq_div_pow]
  exact Nat.and_two_pow_sub_one_eq_mod _ 8

theorem value_ipv4AddressFromULong (x : BitVec 64) : (ipv4AddressFromULong x).value = x.toNat % 2 ^ 32 := by
  have hbyte3 : x.toNat &&& 255 = x.toNat % 256 := Nat.and_two_pow_sub_one_eq_mod _ 8
  have hmask (i : ℕ) := and_mask_shiftRight x.toNat i
  have h24 := hmask 24
  have h16 := hmask 16
  have h8 := hmask 8
  simp only [IPv4Address.value, ipv4AddressFromULong, BitVec.toNat_setWidth, BitVec.toNat_ushiftRight,
    BitVec.toNat_and]
  change 256 * (256 * (256 * ((x.toNat &&& 255 <<< 24) >>> 24 % 2 ^ 8) +
    (x.toNat &&& 255 <<< 16) >>> 16 % 2 ^ 8) + (x.toNat &&& 255 <<< 8) >>> 8 % 2 ^ 8) +
    (x.toNat &&& 255) % 2 ^ 8 = _
  rw [h24, h16, h8, hbyte3]
  omega

theorem ipv4AddressFromULong_uLongFromIPv4Address (a : IPv4Address) :
    ipv4AddressFromULong (uLongFromIPv4Address a) = a := by
  apply IPv4Address.value_inj
  have hlt := a.value_lt
  rw [value_ipv4AddressFromULong, toNat_uLongFromIPv4Address]
  split_ifs with hlow <;> omega

theorem uLongFromIPv4Address_ipv4AddressFromULong_iff (hx : x.toNat < 2 ^ 32) :
    uLongFromIPv4Address (ipv4AddressFromULong x) = x ↔ x.toNat < 2 ^ 31 := by
  rw [← BitVec.toNat_inj, toNat_uLongFromIPv4Address, value_ipv4AddressFromULong, Nat.mod_eq_of_lt hx]
  split_ifs with hlow <;> omega

end Values

/-! ## Reading text -/

theorem IPv4Address.addToByte_add (a : IPv4Address) (n : ℕ) (d e : ℤ) :
    (a.addToByte n d).addToByte n e = a.addToByte n (d + e) := by
  unfold addToByte
  rw [BitVec.ofInt_add]
  match n with
  | 0 | 1 | 2 | _ + 3 => simp only [BitVec.add_assoc]

/-- The number that the digits stand for; a first digit above 2 is taken for 0. -/
def numberOf : List Char → ℤ
  | [h, t, o] => (if (h.toNat : ℤ) - '0'.toNat < 3 then (h.toNat : ℤ) - '0'.toNat else 0) * 100 +
      ((t.toNat : ℤ) - '0'.toNat) * 10 + ((o.toNat : ℤ) - '0'.toNat)
  | [t, o] => ((t.toNat : ℤ) - '0'.toNat) * 10 + ((o.toNat : ℤ) - '0'.toNat)
  | [o] => (o.toNat : ℤ) - '0'.toNat
  | _ => 0

/-- What is written for a byte. -/
structure Writes (g : List Char) (byte : BitVec 8) : Prop where
  pos : 0 < g.length
  length_le : g.length ≤ 3
  digits : ∀ c ∈ g, c.isDigit = true
  number : BitVec.ofInt 8 (numberOf g) = byte

/-- Below 300 the first of three digits is at most 2, so that none is taken for 0. -/
theorem numberOf_eq_ofDigitChars {g : List Char} (hdigits : ∀ c ∈ g, c.isDigit = true) (hpos : 0 < g.length)
    (hlength : g.length ≤ 3) (hlow : Nat.ofDigitChars 10 g 0 < 300) :
    numberOf g = (Nat.ofDigitChars 10 g 0 : ℕ) := by
  have hzero : ∀ c ∈ g, '0'.toNat ≤ c.toNat := by
    intro c hc
    have hdigit := hdigits c hc
    simp only [Char.isDigit, Bool.and_eq_true, decide_eq_true_eq] at hdigit
    exact hdigit.1
  match g, hpos, hlength with
  | [o], _, _ =>
    have ho := hzero o (by simp)
    simp only [Nat.ofDigitChars_cons, Nat.ofDigitChars_nil, numberOf]
    omega
  | [t, o], _, _ =>
    have ht := hzero t (by simp)
    have ho := hzero o (by simp)
    simp only [Nat.ofDigitChars_cons, Nat.ofDigitChars_nil, numberOf]
    omega
  | [h, t, o], _, _ =>
    have hh := hzero h (by simp)
    have ht := hzero t (by simp)
    have ho := hzero o (by simp)
    simp only [Nat.ofDigitChars_cons, Nat.ofDigitChars_nil] at hlow
    simp only [Nat.ofDigitChars_cons, Nat.ofDigitChars_nil, numberOf]
    rw [if_pos (by omega)]
    omega

theorem writes_printNumber (byte : BitVec 8) : Writes (IPAddress.printNumber (promote byte)) byte := by
  have hbyte : byte.toNat < 256 := byte.isLt
  unfold IPAddress.printNumber
  rw [toNat_promote]
  have hdigits : ∀ c ∈ Nat.toDigits 10 byte.toNat, c.isDigit = true :=
    fun c hc ↦ Nat.isDigit_of_mem_toDigits (by decide) (by decide) hc
  have hlength : (Nat.toDigits 10 byte.toNat).length ≤ 3 :=
    (Nat.length_toDigits_le_iff (by decide) (by decide)).mpr (by omega)
  have hvalue : Nat.ofDigitChars 10 (Nat.toDigits 10 byte.toNat) 0 = byte.toNat := Nat.ofDigitChars_ten_toDigits
  have hnumber := numberOf_eq_ofDigitChars hdigits Nat.length_toDigits_pos hlength (by omega)
  rw [hvalue] at hnumber
  exact ⟨Nat.length_toDigits_pos, hlength, hdigits, by rw [hnumber, BitVec.ofInt_natCast, BitVec.ofNat_toNat,
    BitVec.setWidth_eq]⟩

section Text

variable {front g rest text : List Char} {s : Scan} {rounds : ℕ}

theorem charAt_append (front text : List Char) (k : ℕ) :
    charAt (front ++ text) (front.length + k) = charAt text k := by
  unfold charAt
  rw [List.getD_eq_getElem?_getD, List.getD_eq_getElem?_getD,
    List.getElem?_append_right (Nat.le_add_right _ _), Nat.add_sub_cancel_left]

theorem digitAt_append (front text : List Char) (k : ℕ) :
    digitAt (front ++ text) (front.length + k) = digitAt text k := by
  unfold digitAt
  rw [charAt_append]

theorem addDigits_eq (hg : g.length ≤ 3) (n : ℕ) (a : IPv4Address) :
    addDigits (front ++ (g ++ rest)) (front.length + g.length) g.length n a =
      a.addToByte n (numberOf g) := by
  have hzero : a.addToByte n 0 = a := by
    unfold IPv4Address.addToByte
    match n with
    | 0 | 1 | 2 | _ + 3 => simp
  match g with
  | [] => exact hzero.symm
  | [o] =>
    show a.addToByte n (digitAt (front ++ _) (front.length + 0)) = _
    rw [digitAt_append]
    rfl
  | [t, o] =>
    show (a.addToByte n (digitAt (front ++ _) (front.length + 0) * 10)).addToByte n
      (digitAt (front ++ _) (front.length + 1)) = _
    rw [digitAt_append, digitAt_append, IPv4Address.addToByte_add]
    rfl
  | [h, t, o] =>
    show ((a.addToByte n ((if digitAt (front ++ _) (front.length + 0) < 3 then
      digitAt (front ++ _) (front.length + 0) else 0) * 100)).addToByte n
        (digitAt (front ++ _) (front.length + 1) * 10)).addToByte n
          (digitAt (front ++ _) (front.length + 2)) = _
    rw [digitAt_append, digitAt_append, digitAt_append, IPv4Address.addToByte_add,
      IPv4Address.addToByte_add, ← Int.add_assoc]
    rfl

theorem loop_digits (front : List Char) (hdigits : ∀ c ∈ g, c.isDigit = true) :
    Scan.loop (front ++ (g ++ rest)) (rounds + g.length) front.length s =
      Scan.loop (front ++ (g ++ rest)) rounds (front.length + g.length) s := by
  induction g generalizing front with
  | nil => rfl
  | cons c g ih =>
    obtain ⟨hc, hg⟩ := List.forall_mem_cons.mp hdigits
    have hchar : charAt (front ++ (c :: g ++ rest)) front.length = c := charAt_append front _ 0
    have hend : c ≠ '\x00' := by
      rintro rfl
      cases hc
    have hdot : c ≠ '.' := by
      rintro rfl
      cases hc
    rw [List.length_cons, ← Nat.add_assoc, Scan.loop, hchar, if_neg hend,
      if_neg (fun hnot ↦ hnot.1 hc), if_neg hdot]
    have hrest := ih (front ++ [c]) hg
    rw [List.length_append, List.append_assoc] at hrest
    change Scan.loop (front ++ (c :: g ++ rest)) (rounds + g.length) (front.length + 1) s =
      Scan.loop (front ++ (c :: g ++ rest)) rounds (front.length + 1 + g.length) s at hrest
    rw [hrest]
    congr 1
    omega

theorem loop_number {byte : BitVec 8} (front rest : List Char) (hg : Writes g byte)
    (htext : text = front ++ (g ++ '.' :: rest)) (hdot : s.lastDot = front.length - 1)
    (hcount : s.byteCount < 3) :
    Scan.loop text (rounds + 1 + g.length) front.length s =
      Scan.loop text rounds (front ++ (g ++ ['.'])).length
        { byteForm := s.byteForm.addToByte s.byteCount (numberOf g)
          lastDot := (front ++ (g ++ ['.'])).length - 1
          byteCount := s.byteCount + 1 } := by
  subst htext
  have hchar : charAt (front ++ (g ++ '.' :: rest)) (front.length + g.length) = '.' := by
    rw [charAt_append]
    exact charAt_append g _ 0
  have hbefore : s.digitsBefore (front.length + g.length) = g.length := by
    unfold Scan.digitsBefore
    rw [hdot]
    push_cast
    omega
  have hnext : (front ++ (g ++ ['.'])).length = front.length + g.length + 1 := by
    rw [List.length_append, List.length_append, Nat.add_assoc]
    rfl
  have hpass : s.passDot (front ++ (g ++ '.' :: rest)) (front.length + g.length) =
      ⟨s.byteForm.addToByte s.byteCount (numberOf g), ↑(front.length + g.length), s.byteCount + 1⟩ := by
    unfold Scan.passDot Scan.addDigits
    rw [hbefore, addDigits_eq hg.length_le]
  have hpos := hg.pos
  have hlength := hg.length_le
  have hback : ¬ '.' = '\x00' := by decide
  have hisDot : ¬ (¬ ('.').isDigit = true ∧ '.' ≠ '.') := fun hnot ↦ hnot.2 rfl
  have hmore : ¬ 3 < s.byteCount + 1 := by omega
  have hlast : (((front ++ (g ++ ['.'])).length : ℕ) : ℤ) - 1 = ↑(front.length + g.length) := by
    rw [hnext]
    push_cast
    omega
  rw [loop_digits front hg.digits, Scan.loop, hchar, if_neg hback, if_neg hisDot, if_pos rfl,
    if_neg (by omega), hbefore, if_neg (by omega), hpass, if_neg hmore, hlast, hnext]

theorem loop_last {byte : BitVec 8} (front : List Char) (hg : Writes g byte) (htext : text = front ++ g)
    (hdot : s.lastDot = front.length - 1) (hcount : s.byteCount ≤ 3) :
    Scan.loop text (rounds + 1 + g.length) front.length s =
      s.byteForm.addToByte s.byteCount (numberOf g) := by
  rw [← List.append_nil g] at htext
  subst htext
  have hchar : charAt (front ++ (g ++ [])) (front.length + g.length) = '\x00' := by
    rw [charAt_append]
    exact charAt_append g _ 0
  have hbefore : s.digitsBefore (front.length + g.length) = g.length := by
    unfold Scan.digitsBefore
    rw [hdot]
    push_cast
    omega
  have hlength := hg.length_le
  rw [loop_digits front hg.digits, Scan.loop, hchar, if_pos rfl, hbefore, if_pos ⟨hcount, by omega⟩]
  unfold Scan.addDigits
  rw [hbefore, addDigits_eq hlength]

end Text

theorem ipv4AddressFromAddressString_dotted (a : IPv4Address) :
    ipv4AddressFromAddressString (dotted (promote a.byte0) (promote a.byte1) (promote a.byte2)
      (promote a.byte3)) = a := by
  have h0 := writes_printNumber a.byte0
  have h1 := writes_printNumber a.byte1
  have h2 := writes_printNumber a.byte2
  have h3 := writes_printNumber a.byte3
  unfold ipv4AddressFromAddressString dotted
  generalize IPAddress.printNumber (promote a.byte0) = g0 at h0 ⊢
  generalize IPAddress.printNumber (promote a.byte1) = g1 at h1 ⊢
  generalize IPAddress.printNumber (promote a.byte2) = g2 at h2 ⊢
  generalize IPAddress.printNumber (promote a.byte3) = g3 at h3 ⊢
  -- one round for each character and one for the terminator
  obtain ⟨rounds, hrounds⟩ : ∃ rounds,
      16 = rounds + 1 + g3.length + 1 + g2.length + 1 + g1.length + 1 + g0.length := by
    have hlength0 := h0.length_le
    have hlength1 := h1.length_le
    have hlength2 := h2.length_le
    have hlength3 := h3.length_le
    exact ⟨12 - g0.length - g1.length - g2.length - g3.length, by omega⟩
  have htext1 : g0 ++ '.' :: (g1 ++ '.' :: (g2 ++ '.' :: g3)) =
      ([] ++ (g0 ++ ['.'])) ++ (g1 ++ '.' :: (g2 ++ '.' :: g3)) := by simp
  have htext2 : g0 ++ '.' :: (g1 ++ '.' :: (g2 ++ '.' :: g3)) =
      (([] ++ (g0 ++ ['.'])) ++ (g1 ++ ['.'])) ++ (g2 ++ '.' :: g3) := by simp
  have htext3 : g0 ++ '.' :: (g1 ++ '.' :: (g2 ++ '.' :: g3)) =
      ((([] ++ (g0 ++ ['.'])) ++ (g1 ++ ['.'])) ++ (g2 ++ ['.'])) ++ g3 := by simp
  rw [hrounds]
  show Scan.loop _ _ ([] : List Char).length _ = _
  rw [loop_number [] _ h0 (List.nil_append _).symm rfl (by decide),
    loop_number _ _ h1 htext1 rfl (Nat.lt_of_sub_eq_succ rfl),
    loop_number _ _ h2 htext2 rfl (Nat.lt_of_sub_eq_succ rfl),
    loop_last _ h3 htext3 rfl le_rfl]
  simp only [IPv4Address.addToByte, nullIPv4Address, h0.number, h1.number, h2.number, h3.number]
  exact IPv4Address.ext (BitVec.zero_add _) (BitVec.zero_add _) (BitVec.zero_add _) (BitVec.zero_add _)

theorem addressStringFromULong_eq (bufferLength : ℤ) (x : BitVec 64) :
    addressStringFromULong bufferLength x =
      addressStringFromIPv4Address bufferLength (ipv4AddressFromULong x) := by
  have hbyte (y : BitVec 64) (hy : y.toNat < 256) : y.setWidth 32 = promote (y.setWidth 8) := by
    apply BitVec.eq_of_toNat_eq
    rw [toNat_promote, BitVec.toNat_setWidth, BitVec.toNat_setWidth]
    omega
  have hmask (i : ℕ) : (x.toNat &&& 255 <<< i) >>> i < 256 := by
    rw [and_mask_shiftRight]
    exact Nat.mod_lt _ (by decide)
  have hlast : x.toNat &&& 255 < 256 := Nat.lt_succ_of_le Nat.and_le_right
  unfold addressStringFromULong
  rw [hbyte ((x &&& 0xFF000000) >>> 24) (hmask 24), hbyte ((x &&& 0x00FF0000) >>> 16) (hmask 16),
    hbyte ((x &&& 0x0000FF00) >>> 8) (hmask 8), hbyte (x &&& 0x000000FF) hlast]
  rfl

/-! ## There and back -/

/-- As unsigned longs and as addresses, `x` and `a` compare in the same way. -/
structure ComparesAlike (x : BitVec 64) (a : IPv4Address) : Prop where
  lt : x < uLongFromIPv4Address a ↔ ipv4AddressFromULong x < a
  gt : uLongFromIPv4Address a < x ↔ a < ipv4AddressFromULong x
  eq : uLongFromIPv4Address a = x ↔ a = ipv4AddressFromULong x

theorem uLongFromIPv4Address_lt_iff (a b : IPv4Address) :
    uLongFromIPv4Address a < uLongFromIPv4Address b ↔ a < b := by
  have ha := a.value_lt
  have hb := b.value_lt
  rw [IPv4Address.lt_iff, BitVec.lt_def, toNat_uLongFromIPv4Address, toNat_uLongFromIPv4Address]
  split_ifs <;> omega

theorem uLongFromIPv4Address_inj (a b : IPv4Address) :
    uLongFromIPv4Address a = uLongFromIPv4Address b ↔ a = b := by
  refine ⟨fun h ↦ ?_, congrArg _⟩
  have hback := congrArg ipv4AddressFromULong h
  rwa [ipv4AddressFromULong_uLongFromIPv4Address, ipv4AddressFromULong_uLongFromIPv4Address] at hback

/-- The comparison agrees with that of the addresses if `x` comes back. -/
theorem comparesAlike_of_back {x : BitVec 64}
    (h : uLongFromIPv4Address (ipv4AddressFromULong x) = x) (a : IPv4Address) : ComparesAlike x a := by
  constructor
  · rw [← uLongFromIPv4Address_lt_iff, h]
  · rw [← uLongFromIPv4Address_lt_iff, h]
  · rw [← uLongFromIPv4Address_inj, h]

/-- What the lower half of the address space becomes comes back, and nothing else does. Addresses always come
back, and keep their order. -/
theorem addressConversions_iff (x : BitVec 64) (hx : x.toNat < 2 ^ 32) (bufferLength : ℤ)
    (hbuffer : 16 ≤ bufferLength) :
    (uLongFromIPv4Address (ipv4AddressFromULong x) = x ↔ x.toNat < 2 ^ 31) ∧
    ((addressStringFromULong bufferLength x).map uLongFromAddressString = some x ↔ x.toNat < 2 ^ 31) ∧
    ((∀ a, ComparesAlike x a) ↔ x.toNat < 2 ^ 31) ∧
    (∀ a, ipv4AddressFromULong (uLongFromIPv4Address a) = a) ∧
    (∀ a b, (uLongFromIPv4Address a < uLongFromIPv4Address b ↔ a < b) ∧
      (uLongFromIPv4Address a = uLongFromIPv4Address b ↔ a = b)) := by
  have hback := uLongFromIPv4Address_ipv4AddressFromULong_iff hx
  refine ⟨hback, ?_, ?_, ipv4AddressFromULong_uLongFromIPv4Address,
    fun a b ↦ ⟨uLongFromIPv4Address_lt_iff a b, uLongFromIPv4Address_inj a b⟩⟩
  · rw [addressStringFromULong_eq, addressStringFromIPv4Address, if_neg (not_lt.mpr hbuffer), Option.map_some,
      uLongFromAddressString, ipv4AddressFromAddressString_dotted, Option.some_inj]
    exact hback
  · rw [← hback]
    constructor
    · intro hall
      exact (hall (ipv4AddressFromULong x)).eq.mpr rfl
    · exact comparesAlike_of_back

theorem addressConversions_privateNetwork :
    (uLongFromIPv4Address (ipv4AddressFromULong 0x0A000001) = 0x0A000001 ↔
      (0x0A000001 : BitVec 64).toNat < 2 ^ 31) ∧
    ((addressStringFromULong 16 0x0A000001).map uLongFromAddressString = some 0x0A000001 ↔
      (0x0A000001 : BitVec 64).toNat < 2 ^ 31) ∧
    ((∀ a, ComparesAlike 0x0A000001 a) ↔ (0x0A000001 : BitVec 64).toNat < 2 ^ 31) ∧
    (∀ a, ipv4AddressFromULong (uLongFromIPv4Address a) = a) ∧
    (∀ a b, (uLongFromIPv4Address a < uLongFromIPv4Address b ↔ a < b) ∧
      (uLongFromIPv4Address a = uLongFromIPv4Address b ↔ a = b)) :=
  addressConversions_iff 0x0A000001 (by decide) 16 le_rfl

/-- 192.168.0.1 becomes a negative `int`. -/
theorem addressConversions_negative :
    uLongFromIPv4Address (ipv4AddressFromULong 0xC0A80001) = 0xFFFFFFFFC0A80001 ∧
      (addressStringFromULong 16 0xC0A80001).map uLongFromAddressString = some 0xFFFFFFFFC0A80001 ∧
      ¬ ∀ x : BitVec 64, x.toNat < 2 ^ 32 → uLongFromIPv4Address (ipv4AddressFromULong x) = x ∧
        (addressStringFromULong 16 x).map uLongFromAddressString = some x := by
  refine ⟨by decide, by decide +kernel, ?_⟩
  intro hall
  exact absurd (hall 0xC0A80001 (by decide)).1 (by decide)

end InetManet.OSPF.Common
