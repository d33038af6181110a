import InetManet.Library.CString
import InetManet.Network.Address

/-!
# Dotted decimal text

Writing an IPv4 address as four numbers with dots between them, and reading it back. A C string is
the list of the characters before its terminator. Digits are summed up in a 32-bit `int` that wraps
around.
-/

namespace InetManet.IPAddress

open CString

/-- `while (*s>='0' && *s<='9') num = 10*num + (*s++ - '0');`, with `num` and `s` afterwards. -/
def readNumber (num : BitVec 32) : List Char → BitVec 32 × List Char
  | [] => (num, [])
  | c :: s =>
    if c.isDigit then readNumber (10 * num + BitVec.ofNat 32 (c.toNat - '0'.toNat)) s
    else (num, c :: s)

/-- The loop over the numbers. After the fourth one it returns, so that four rounds are enough. -/
def parseNumbers : ℕ → List Char → List (BitVec 8) → Option (List (BitVec 8))
  | 0, _, _ => none
  | rounds + 1, s, tobytes =>
    if ¬ s.head?.any Char.isDigit then none  -- missing number
    else
      let (num, s) := readNumber 0 s
      if num.toInt > 255 then none  -- number too big
      else
        let tobytes := tobytes ++ [num.setWidth 8]
        match s with
        | [] => if tobytes.length = 4 then some tobytes else none
        | c :: s =>
          if c ≠ '.' then none  -- invalid char after number
          else if tobytes.length = 4 then none  -- read 4th number and not yet EOS
          else parseNumbers rounds s tobytes

def parseIPAddress (text : List Char) : Option (List (BitVec 8)) :=
  if text = "<unspec>".toList then some [0, 0, 0, 0] else parseNumbers 4 text []

def isWellFormed (text : List Char) : Bool := (parseIPAddress text).isSome

/-- `(i0 << 24) | (i1 << 16) | (i2 << 8) | i3`. -/
def setBytes (i0 i1 i2 i3 : BitVec 32) : IPAddress :=
  (i0 <<< 24) ||| (i1 <<< 16) ||| (i2 <<< 8) ||| i3

/-- The address that `set` leaves; `none` is the error it stops with. -/
def set (text : List Char) : Option IPAddress :=
  match parseIPAddress text with
  | some [b0, b1, b2, b3] =>
    some (setBytes (b0.setWidth 32) (b1.setWidth 32) (b2.setWidth 32) (b3.setWidth 32))
  | _ => none

/-- `%u`. -/
def printNumber (x : BitVec 32) : List Char := Nat.toDigits 10 x.toNat

def str (addr : IPAddress) : List Char :=
  if addr = 0 then "<unspec>".toList
  else
    printNumber ((addr >>> 24) &&& 255) ++ '.' :: printNumber ((addr >>> 16) &&& 255) ++
      '.' :: printNumber ((addr >>> 8) &&& 255) ++ '.' :: printNumber (addr &&& 255)

/-! ## The grammar -/

/-- A text of digits as a number, without a bound. -/
def decimal (g : List Char) : ℕ := Nat.ofDigitChars 10 g 0

/-- A number is written with one or more digits. -/
def IsNumber (g : List Char) : Prop := g ≠ [] ∧ ∀ c ∈ g, c.isDigit

/-- Four numbers with single dots between them. -/
structure DottedQuad (groups : List (List Char)) (s : List Char) : Prop where
  four : groups.length = 4
  text : s = ['.'].intercalate groups
  numbers : ∀ g ∈ groups, IsNumber g

/-- Four decimal numbers in 0..255 joined by single dots, or the special text. -/
def Grammar (s : List Char) : Prop :=
  s = "<unspec>".toList ∨ ∃ groups, DottedQuad groups s ∧ ∀ g ∈ groups, decimal g ≤ 255

/-- The big-endian combination. -/
def bigEndian (groups : List (List Char)) : ℕ := groups.foldl (fun v g ↦ 256 * v + decimal g) 0

/-- A number above 255 whose sum wraps around to 0..255, or to a negative number. -/
def Wraps (g : List Char) : Prop :=
  255 < decimal g ∧ (decimal g % 2 ^ 32 ≤ 255 ∨ 2 ^ 31 ≤ decimal g % 2 ^ 32)

/-- Four numbers of which some wrap around, and the others are in 0..255. -/
def Overflows (s : List Char) : Prop :=
  ∃ groups, DottedQuad groups s ∧ (∀ g ∈ groups, decimal g ≤ 255 ∨ Wraps g) ∧ ∃ g ∈ groups, Wraps g

/-- The text is accepted exactly if it is in the grammar, and its value is that of the numbers. -/
structure ParsesGrammar (s : List Char) : Prop where
  wellFormed_iff : isWellFormed s ↔ Grammar s
  set_iff : (set s).isSome ↔ Grammar s
  value : ∀ groups, DottedQuad groups s → (∀ g ∈ groups, decimal g ≤ 255) →
    set s = some (BitVec.ofNat 32 (bigEndian groups))
  unspecified : s = "<unspec>".toList → set s = some 0

/-- What `num` holds after the digits, read as a signed number, passes the check. -/
def Passes (g : List Char) : Prop := (BitVec.ofNat 32 (decimal g)).toInt ≤ 255

instance : DecidablePred Passes := fun g ↦
  inferInstanceAs (Decidable ((BitVec.ofNat 32 (decimal g)).toInt ≤ 255))

/-! ## Reading numbers -/

theorem readNumber_eq (n : ℕ) (s : List Char) :
    readNumber (BitVec.ofNat 32 n) s =
      (BitVec.ofNat 32 (Nat.ofDigitChars 10 (s.takeWhile Char.isDigit) n),
        s.dropWhile Char.isDigit) := by
  induction s generalizing n with
  | nil => simp [readNumber]
  | cons c s ih =>
    by_cases hc : c.isDigit = true
    · have hstep : 10 * BitVec.ofNat 32 n + BitVec.ofNat 32 (c.toNat - '0'.toNat) =
          BitVec.ofNat 32 (10 * n + (c.toNat - '0'.toNat)) := by
        rw [BitVec.ofNat_add, BitVec.ofNat_mul]
        rfl
      rw [readNumber, if_pos hc, hstep, ih, List.takeWhile_cons_of_pos hc,
        List.dropWhile_cons_of_pos hc, Nat.ofDigitChars_cons]
    · rw [readNumber, if_neg hc, List.takeWhile_cons_of_neg hc, List.dropWhile_cons_of_neg hc,
        Nat.ofDigitChars_nil]

/-- Digits in front of something else are read as one number. -/
theorem readNumber_append {g rest : List Char} (hg : ∀ c ∈ g, c.isDigit)
    (hrest : ∀ c ∈ rest.head?, ¬ c.isDigit) :
    readNumber 0 (g ++ rest) = (BitVec.ofNat 32 (decimal g), rest) := by
  change readNumber (BitVec.ofNat 32 0) _ = _
  rw [readNumber_eq, takeWhile_append_stop hg hrest, dropWhile_append_stop hg hrest, decimal]

/-- The bytes that are stored for some texts of digits. -/
def storedBytes (groups : List (List Char)) : List (BitVec 8) :=
  groups.map fun g ↦ (BitVec.ofNat 32 (decimal g)).setWidth 8

/-- One round, over the digits in front of something else. -/
theorem parseNumbers_append {g rest : List Char} (hg : IsNumber g)
    (hrest : ∀ c ∈ rest.head?, ¬ c.isDigit) (rounds : ℕ) (bytes : List (BitVec 8)) :
    parseNumbers (rounds + 1) (g ++ rest) bytes =
      if ¬ Passes g then none
      else
        match rest with
        | [] => if (bytes ++ storedBytes [g]).length = 4 then some (bytes ++ storedBytes [g]) else none
        | c :: s =>
          if c ≠ '.' then none
          else if (bytes ++ storedBytes [g]).length = 4 then none
          else parseNumbers rounds s (bytes ++ storedBytes [g]) := by
  have hhead : (g ++ rest).head?.any Char.isDigit = true := by
    cases g with
    | nil => exact absurd rfl hg.1
    | cons c g => exact hg.2 c List.mem_cons_self
  have htoo : (BitVec.ofNat 32 (decimal g)).toInt > 255 ↔ ¬ Passes g := not_le.symm
  rw [parseNumbers, if_neg (not_not_intro hhead), readNumber_append hg.2 hrest]
  simp only [htoo]
  rfl

theorem dot_not_digit (rest : List Char) : ∀ c ∈ ('.' :: rest).head?, ¬ c.isDigit := by
  intro c hc
  cases hc
  decide

theorem end_not_digit : ∀ c ∈ ([] : List Char).head?, ¬ c.isDigit := nofun

theorem parseNumbers_complete {groups : List (List Char)} (hne : groups ≠ [])
    (hnumbers : ∀ g ∈ groups, IsNumber g) (hpasses : ∀ g ∈ groups, Passes g) (bytes : List (BitVec 8))
    (hfour : bytes.length + groups.length = 4) :
    parseNumbers groups.length (['.'].intercalate groups) bytes =
      some (bytes ++ storedBytes groups) := by
  induction groups generalizing bytes with
  | nil => exact absurd rfl hne
  | cons g groups ih =>
    have hg := hnumbers g List.mem_cons_self
    have hp := hpasses g List.mem_cons_self
    have hlen : (bytes ++ storedBytes [g]).length + groups.length = 4 := by
      simp only [storedBytes, List.length_append, List.length_map, List.length_cons,
        List.length_nil] at hfour ⊢
      omega
    cases groups with
    | nil =>
      have hstep := parseNumbers_append hg end_not_digit 0 bytes
      rw [List.append_nil, if_neg (not_not_intro hp)] at hstep
      rw [List.intercalate_singleton]
      exact hstep.trans (if_pos hlen)
    | cons g' groups =>
      have hmore : ¬ (bytes ++ storedBytes [g]).length = 4 := by
        rw [List.length_cons] at hlen
        omega
      have hstep := parseNumbers_append hg (dot_not_digit (['.'].intercalate (g' :: groups)))
        (g' :: groups).length bytes
      rw [if_neg (not_not_intro hp)] at hstep
      calc parseNumbers (g :: g' :: groups).length (['.'].intercalate (g :: g' :: groups)) bytes
          = parseNumbers ((g' :: groups).length + 1) (g ++ '.' :: ['.'].intercalate (g' :: groups))
              bytes := by rw [List.intercalate_cons_cons, List.append_assoc]; rfl
        _ = parseNumbers (g' :: groups).length (['.'].intercalate (g' :: groups))
              (bytes ++ storedBytes [g]) := hstep.trans (if_neg hmore)
        _ = some (bytes ++ storedBytes [g] ++ storedBytes (g' :: groups)) :=
          ih (List.cons_ne_nil _ _) (fun x hx ↦ hnumbers x (List.mem_cons_of_mem g hx))
            (fun x hx ↦ hpasses x (List.mem_cons_of_mem g hx)) _ hlen
        _ = some (bytes ++ storedBytes (g :: g' :: groups)) := by
          rw [List.append_assoc]
          rfl

/-- A text that starts with a digit is its leading digits and a rest that does not. -/
theorem exists_number {s : List Char} (h : s.head?.any Char.isDigit = true) :
    ∃ g rest, s = g ++ rest ∧ IsNumber g ∧ ∀ c ∈ rest.head?, ¬ c.isDigit := by
  use s.takeWhile Char.isDigit, s.dropWhile Char.isDigit
  refine ⟨List.takeWhile_append_dropWhile.symm, ⟨?_, ?_⟩, ?_⟩
  · cases s with
    | nil => cases h
    | cons c s =>
      have hc : c.isDigit = true := h
      rw [List.takeWhile_cons_of_pos hc]
      exact List.cons_ne_nil _ _
  · intro c hc
    have hall := List.all_takeWhile (p := Char.isDigit) (l := s)
    exact List.all_eq_true.mp hall c hc
  · intro c hc
    have hnot := List.head?_dropWhile_not Char.isDigit s
    rw [hc] at hnot
    simpa using hnot

/-- An accepted text consists of as many numbers as there are still to come. -/
theorem parseNumbers_sound {rounds : ℕ} {s : List Char} {bytes out : List (BitVec 8)}
    (hfour : bytes.length + rounds = 4) (h : parseNumbers rounds s bytes = some out) :
    ∃ groups, groups.length = rounds ∧ s = ['.'].intercalate groups ∧
      (∀ g ∈ groups, IsNumber g) ∧ ∀ g ∈ groups, Passes g := by
  induction rounds generalizing s bytes with
  | zero => cases h
  | succ rounds ih =>
    have hhead : s.head?.any Char.isDigit = true := by
      by_contra hhead
      rw [parseNumbers, if_pos hhead] at h
      cases h
    obtain ⟨g, rest, rfl, hg, hrest⟩ := exists_number hhead
    rw [parseNumbers_append hg hrest] at h
    have hlen : (bytes ++ storedBytes [g]).length + rounds = 4 := by
      simp only [storedBytes, List.length_append, List.length_map, List.length_cons,
        List.length_nil]
      omega
    by_cases hp : Passes g
    · rw [if_neg (not_not_intro hp)] at h
      cases rest with
      | nil =>
        have hend := (Option.ite_none_right_eq_some.mp h).1
        use [g]
        simp [hg, hp]
        omega
      | cons c rest =>
        obtain ⟨hdot, h⟩ := Option.ite_none_left_eq_some.mp h
        obtain ⟨hmore, h⟩ := Option.ite_none_left_eq_some.mp h
        obtain ⟨groups, hcount, rfl, hnumbers, hpasses⟩ := ih hlen h
        use g :: groups
        have hne : groups ≠ [] := by
          intro hnil
          rw [hnil, List.length_nil] at hcount
          omega
        refine ⟨by rw [List.length_cons, hcount], ?_, List.forall_mem_cons.mpr ⟨hg, hnumbers⟩,
          List.forall_mem_cons.mpr ⟨hp, hpasses⟩⟩
        rw [List.intercalate_cons_of_ne_nil hne, not_not.mp hdot, List.append_assoc]
        rfl
    · rw [if_pos hp] at h
      cases h

/-! ## Whole texts -/

theorem passes_iff (g : List Char) : Passes g ↔ decimal g ≤ 255 ∨ Wraps g := by
  unfold Passes Wraps
  rw [BitVec.toInt_eq_toNat_cond, BitVec.toNat_ofNat]
  split <;> omega

/-- The groups are what is between the dots, so that a text has only one list of them. -/
theorem DottedQuad.splitOn {groups : List (List Char)} {s : List Char} (h : DottedQuad groups s) :
    s.splitOn '.' = groups := by
  rw [h.text]
  apply List.splitOn_intercalate
  · intro g hg hdot
    exact absurd ((h.numbers g hg).2 '.' hdot) (by decide)
  · intro hnil
    cases hnil ▸ h.four

theorem DottedQuad.ne_unspec {groups : List (List Char)} {s : List Char} (h : DottedQuad groups s) :
    s ≠ "<unspec>".toList := by
  intro hs
  have hone : ("<unspec>".toList.splitOn '.').length = 1 := by decide
  rw [← hs, h.splitOn, h.four] at hone
  cases hone

theorem parseNumbers_four_iff (s : List Char) (out : List (BitVec 8)) :
    parseNumbers 4 s [] = some out ↔
      ∃ groups, DottedQuad groups s ∧ (∀ g ∈ groups, Passes g) ∧ out = storedBytes groups := by
  have hcomplete : ∀ groups, DottedQuad groups s → (∀ g ∈ groups, Passes g) →
      parseNumbers 4 s [] = some (storedBytes groups) := by
    intro groups hquad hpasses
    have hne : groups ≠ [] := by
      intro hnil
      cases hnil ▸ hquad.four
    have hrun := parseNumbers_complete hne hquad.numbers hpasses [] (by simp [hquad.four])
    rwa [hquad.four, ← hquad.text] at hrun
  constructor
  · intro h
    obtain ⟨groups, hfour, htext, hnumbers, hpasses⟩ := parseNumbers_sound rfl h
    have hquad : DottedQuad groups s := ⟨hfour, htext, hnumbers⟩
    have hrun := hcomplete groups hquad hpasses
    exact ⟨groups, hquad, hpasses, Option.some.inj (h.symm.trans hrun)⟩
  · intro ⟨groups, hquad, hpasses, hout⟩
    rw [hout]
    exact hcomplete groups hquad hpasses

theorem isWellFormed_iff (s : List Char) :
    isWellFormed s ↔ s = "<unspec>".toList ∨
      ∃ groups, DottedQuad groups s ∧ ∀ g ∈ groups, Passes g := by
  unfold isWellFormed parseIPAddress
  by_cases hs : s = "<unspec>".toList
  · rw [if_pos hs]
    exact iff_of_true rfl (Or.inl hs)
  · rw [if_neg hs, Option.isSome_iff_exists]
    simp only [parseNumbers_four_iff, hs, false_or]
    constructor
    · intro ⟨_, groups, hquad, hpasses, _⟩
      exact ⟨groups, hquad, hpasses⟩
    · intro ⟨groups, hquad, hpasses⟩
      exact ⟨_, groups, hquad, hpasses, rfl⟩

/-- Byte by byte or as a number, the address is the same. -/
theorem setBytes_ofNat {n0 n1 n2 n3 : ℕ} (h0 : n0 ≤ 255) (h1 : n1 ≤ 255) (h2 : n2 ≤ 255)
    (h3 : n3 ≤ 255) :
    setBytes (BitVec.ofNat 32 n0) (BitVec.ofNat 32 n1) (BitVec.ofNat 32 n2) (BitVec.ofNat 32 n3) =
      BitVec.ofNat 32 (256 * (256 * (256 * n0 + n1) + n2) + n3) := by
  apply BitVec.eq_of_toNat_eq
  have hand : ∀ (i a b : ℕ), b < 2 ^ i → a <<< i ||| b = 2 ^ i * a + b := by
    intro i a b hb
    rw [Nat.shiftLeft_eq, mul_comm, Nat.two_pow_add_eq_or_of_lt hb]
  have hmod : ∀ n i : ℕ, n ≤ 255 → i ≤ 24 → (n % 2 ^ 32) <<< i % 2 ^ 32 = n <<< i := by
    intro n i hn hi
    have hpow : 2 ^ i ≤ 2 ^ 24 := Nat.pow_le_pow_right (by decide) hi
    have hn' : n % 2 ^ 32 = n := Nat.mod_eq_of_lt (by omega)
    rw [hn', Nat.shiftLeft_eq]
    apply Nat.mod_eq_of_lt
    calc n * 2 ^ i ≤ 255 * 2 ^ 24 := Nat.mul_le_mul hn hpow
      _ < 2 ^ 32 := by decide
  simp only [setBytes, BitVec.toNat_or, BitVec.toNat_shiftLeft, BitVec.toNat_ofNat,
    hmod n0 24 h0 (by decide), hmod n1 16 h1 (by decide), hmod n2 8 h2 (by decide)]
  rw [Nat.or_assoc, Nat.or_assoc, Nat.mod_eq_of_lt (by omega : n3 < 2 ^ 32),
    hand 8 n2 n3 (by omega), hand 16 n1 _ (by omega), hand 24 n0 _ (by omega)]
  omega

theorem set_eq {groups : List (List Char)} {s : List Char} (h : DottedQuad groups s)
    (hle : ∀ g ∈ groups, decimal g ≤ 255) :
    set s = some (BitVec.ofNat 32 (bigEndian groups)) := by
  have hpasses : ∀ g ∈ groups, Passes g := fun g hg ↦ (passes_iff g).mpr (Or.inl (hle g hg))
  have hrun := (parseNumbers_four_iff s (storedBytes groups)).mpr ⟨groups, h, hpasses, rfl⟩
  have hparse : parseIPAddress s = some (storedBytes groups) := by
    rw [parseIPAddress, if_neg h.ne_unspec, hrun]
  have hfour := h.four
  match groups with
  | [g0, g1, g2, g3] =>
    simp only [List.forall_mem_cons] at hle
    obtain ⟨h0, h1, h2, h3, _⟩ := hle
    have hbyte : ∀ g, decimal g ≤ 255 →
        ((BitVec.ofNat 32 (decimal g)).setWidth 8).setWidth 32 = BitVec.ofNat 32 (decimal g) := by
      intro g hg
      apply BitVec.eq_of_toNat_eq
      simp only [BitVec.toNat_setWidth, BitVec.toNat_ofNat]
      omega
    rw [set, hparse]
    change some (setBytes _ _ _ _) = _
    rw [hbyte g0 h0, hbyte g1 h1, hbyte g2 h2, hbyte g3 h3, setBytes_ofNat h0 h1 h2 h3]
    simp [bigEndian]

theorem intercalate_four (g0 g1 g2 g3 : List Char) :
    ['.'].intercalate [g0, g1, g2, g3] = g0 ++ '.' :: g1 ++ '.' :: g2 ++ '.' :: g3 := by
  simp only [List.intercalate_cons_cons, List.intercalate_singleton, List.append_assoc,
    List.cons_append, List.nil_append]

theorem isSome_set (s : List Char) : (set s).isSome = isWellFormed s := by
  unfold isWellFormed
  cases hparse : parseIPAddress s with
  | none => simp [set, hparse]
  | some out =>
    have hfour : out.length = 4 := by
      rw [parseIPAddress] at hparse
      split at hparse
      · cases hparse
        rfl
      · obtain ⟨groups, hquad, _, rfl⟩ := (parseNumbers_four_iff s out).mp hparse
        rw [storedBytes, List.length_map, hquad.four]
    match out with
    | [b0, b1, b2, b3] => simp [set, hparse]

theorem set_str (a : IPAddress) : set (str a) = some a := by
  by_cases ha : a = 0
  · rw [str, if_pos ha, ha]
    decide
  · have hbyte : ∀ x : BitVec 32, (x &&& 255).toNat = x.toNat % 256 := by
      intro x
      exact Nat.and_two_pow_sub_one_eq_mod x.toNat 8
    have hnumber : ∀ x, IsNumber (printNumber x) := fun x ↦
      ⟨Nat.toDigits_ne_nil, fun c hc ↦ Nat.isDigit_of_mem_toDigits (by decide) (by decide) hc⟩
    have hdecimal : ∀ x, decimal (printNumber x) = x.toNat := fun x ↦ Nat.ofDigitChars_ten_toDigits
    have hquad : DottedQuad [printNumber ((a >>> 24) &&& 255), printNumber ((a >>> 16) &&& 255),
        printNumber ((a >>> 8) &&& 255), printNumber (a &&& 255)] (str a) := by
      constructor
      · rfl
      · rw [str, if_neg ha, intercalate_four]
      · simp only [List.forall_mem_cons, hnumber, true_and]
        exact List.forall_mem_nil _
    rw [set_eq hquad]
    · apply congrArg some
      apply BitVec.eq_of_toNat_eq
      have ha := a.isLt
      simp only [bigEndian, List.foldl_cons, List.foldl_nil, hdecimal, hbyte, BitVec.toNat_ofNat,
        BitVec.toNat_ushiftRight, Nat.shiftRight_eq_div_pow]
      omega
    · simp only [List.forall_mem_cons, hdecimal, hbyte]
      refine ⟨by omega, by omega, by omega, by omega, List.forall_mem_nil _⟩

/-- The text is parsed as the grammar says exactly if no number wraps around into what is let
through, and every address is read back from what is printed for it. -/
theorem parsesGrammar_iff_not_overflows (s : List Char) (a : IPAddress) :
    (ParsesGrammar s ↔ ¬ Overflows s) ∧ set (str a) = some a := by
  refine ⟨⟨?_, ?_⟩, set_str a⟩
  · intro h ⟨groups, hquad, hpasses, g, hg, hwraps⟩
    have hwell : isWellFormed s :=
      (isWellFormed_iff s).mpr (Or.inr ⟨groups, hquad, fun g hg ↦ (passes_iff g).mpr (hpasses g hg)⟩)
    cases h.wellFormed_iff.mp hwell with
    | inl hunspec => exact hquad.ne_unspec hunspec
    | inr hgrammar =>
      obtain ⟨groups', hquad', hle⟩ := hgrammar
      have hsame : groups = groups' := hquad.splitOn.symm.trans hquad'.splitOn
      exact absurd (hle g (hsame ▸ hg)) (not_le.mpr hwraps.1)
  · intro hno
    have hwell : isWellFormed s ↔ Grammar s := by
      rw [isWellFormed_iff]
      apply or_congr Iff.rfl
      apply exists_congr
      intro groups
      apply and_congr_right
      intro hquad
      constructor
      · intro hpasses g hg
        have hall : ∀ g ∈ groups, decimal g ≤ 255 ∨ Wraps g :=
          fun g hg ↦ (passes_iff g).mp (hpasses g hg)
        apply (hall g hg).resolve_right
        intro hwraps
        exact hno ⟨groups, hquad, hall, g, hg, hwraps⟩
      · intro hle g hg
        exact (passes_iff g).mpr (Or.inl (hle g hg))
    constructor
    · exact hwell
    · rw [isSome_set, hwell]
    · intro groups hquad hle
      exact set_eq hquad hle
    · intro hs
      rw [hs]
      decide

theorem not_parsesGrammar :
    ¬ ((∀ s, ParsesGrammar s) ∧ ∀ a, set (str a) = some a) := by
  intro h
  have hwell : isWellFormed "4294967296.0.0.1".toList := by decide
  cases (h.1 _).wellFormed_iff.mp hwell with
  | inl hunspec => exact absurd hunspec (by decide)
  | inr hgrammar =>
    obtain ⟨groups, hquad, hle⟩ := hgrammar
    have hmem : "4294967296".toList ∈ groups := by
      rw [← hquad.splitOn]
      decide
    exact absurd (hle _ hmem) (by decide)

end InetManet.IPAddress
