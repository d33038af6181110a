import Mathlib.Data.BitVec
import Mathlib.Data.List.Basic
import Mathlib.Tactic.Common

/-!
# Numbers in C strings

A C string is the list of the characters before its terminator. `strtoul` with base 16, where `long`
has 64 bits, skips white space, a sign and a leading `0x`, and what does not fit gives the largest
number. A number that was written with these in front is taken whole when a colon or nothing follows.
-/

namespace InetManet.CString

/-- Reading as long as a test holds takes exactly what was put in front. -/
theorem takeWhile_append_stop {p : Char → Bool} {taken rest : List Char} (htaken : ∀ c ∈ taken, p c)
    (hrest : ∀ c ∈ rest.head?, ¬ p c) : (taken ++ rest).takeWhile p = taken := by
  rw [List.takeWhile_append_of_pos htaken]
  cases rest with
  | nil => rw [List.takeWhile_nil, List.append_nil]
  | cons c rest => rw [List.takeWhile_cons_of_neg (hrest c rfl), List.append_nil]

theorem dropWhile_append_stop {p : Char → Bool} {taken rest : List Char} (htaken : ∀ c ∈ taken, p c)
    (hrest : ∀ c ∈ rest.head?, ¬ p c) : (taken ++ rest).dropWhile p = rest := by
  rw [List.dropWhile_append_of_pos htaken]
  cases rest with
  | nil => rfl
  | cons c rest => exact List.dropWhile_cons_of_neg (hrest c rfl)

/-! ## `strtoul` -/

def isspace (c : Char) : Bool :=
  c = ' ' || c = '\t' || c = '\n' || c = '\x0b' || c = '\x0c' || c = '\r'

/-- The value of a hexadecimal digit. -/
def digitValue? (c : Char) : Option ℕ :=
  if '0' ≤ c ∧ c ≤ '9' then some (c.toNat - '0'.toNat)
  else if 'a' ≤ c ∧ c ≤ 'f' then some (c.toNat - 'a'.toNat + 10)
  else if 'A' ≤ c ∧ c ≤ 'F' then some (c.toNat - 'A'.toNat + 10)
  else none

def isxdigit (c : Char) : Bool := (digitValue? c).isSome

/-- A text of hexadecimal digits as a number. -/
def hexValue (digits : List Char) : ℕ :=
  digits.foldl (fun v c ↦ 16 * v + (digitValue? c).getD 0) 0

/-- Whether there is a minus sign, and what follows the sign. -/
def skipSign : List Char → Bool × List Char
  | '-' :: s => (true, s)
  | '+' :: s => (false, s)
  | s => (false, s)

/-- `0x` counts only in front of a digit. -/
def skipPrefix : List Char → List Char
  | '0' :: x :: s => if (x = 'x' ∨ x = 'X') ∧ s.head?.any isxdigit then s else '0' :: x :: s
  | s => s

/-- What the digits stand for; a number that is too large becomes `ULONG_MAX`. -/
def toUlong (negative : Bool) (v : ℕ) : BitVec 64 :=
  if 2 ^ 64 ≤ v then BitVec.allOnes 64
  else if negative then -BitVec.ofNat 64 v else BitVec.ofNat 64 v

/-- `strtoul(s, &e, 16)` with the `e` it leaves. Without a digit nothing is skipped. -/
def strtoul (s : List Char) : BitVec 64 × List Char :=
  let sign := skipSign (s.dropWhile isspace)
  let body := skipPrefix sign.2
  let digits := body.takeWhile isxdigit
  if digits = [] then (0, s)
  else (toUlong sign.1 (hexValue digits), body.dropWhile isxdigit)

/-! ## What is in front of the digits -/

/-- White space, a sign and a prefix. -/
structure Lead where
  space : List Char
  sign : List Char
  pre : List Char
  space_isspace : ∀ c ∈ space, isspace c
  sign_cases : sign = [] ∨ sign = ['+'] ∨ sign = ['-']
  pre_cases : pre = [] ∨ pre = ['0', 'x'] ∨ pre = ['0', 'X']

/-- Nothing in front. -/
def Lead.none : Lead := ⟨[], [], [], List.forall_mem_nil _, Or.inl rfl, Or.inl rfl⟩

def Lead.negative (lead : Lead) : Bool := lead.sign == ['-']

/-- The text of a number. -/
def Lead.write (lead : Lead) (digits : List Char) : List Char :=
  lead.space ++ (lead.sign ++ (lead.pre ++ digits))

/-- The number ends here: at the end of the text or in front of a colon. -/
def Stops (rest : List Char) : Prop := ∀ c ∈ rest.head?, c = ':'

theorem not_isspace_of_isxdigit {c : Char} (h : isxdigit c) : ¬ isspace c := by
  intro hspace
  simp only [isspace, Bool.or_eq_true, decide_eq_true_eq] at hspace
  rcases hspace with ((((rfl | rfl) | rfl) | rfl) | rfl) | rfl <;> exact absurd h (by decide)

theorem ne_of_isxdigit {c d : Char} (h : isxdigit c) (hd : ¬ isxdigit d) : c ≠ d := by
  intro hcd
  exact hd (hcd ▸ h)

theorem not_isxdigit_of_stops {rest : List Char} (h : Stops rest) :
    ∀ c ∈ rest.head?, ¬ isxdigit c := by
  intro c hc
  rw [h c hc]
  decide

theorem skipPrefix_digits {digits rest : List Char} (hdigits : ∀ c ∈ digits, isxdigit c)
    (hrest : Stops rest) :
    skipPrefix (digits ++ rest) = digits ++ rest := by
  have hsecond : ∀ (x : Char) (s : List Char), digits ++ rest = '0' :: x :: s →
      ¬ (x = 'x' ∨ x = 'X') := by
    intro x s htext hx
    match digits with
    | [] =>
      rw [List.nil_append] at htext
      exact absurd (hrest '0' (by rw [htext]; rfl)) (by decide)
    | [_] =>
      rw [List.singleton_append, List.cons.injEq] at htext
      have hcolon := hrest x (by rw [htext.2]; rfl)
      cases hcolon
      exact absurd hx (by decide)
    | _ :: d :: ds =>
      rw [List.cons_append, List.cons_append, List.cons.injEq, List.cons.injEq] at htext
      have hdigit : isxdigit x := by
        rw [← htext.2.1]
        exact hdigits d (List.mem_cons_of_mem _ List.mem_cons_self)
      cases hx with
      | inl hx => exact ne_of_isxdigit hdigit (by decide) hx
      | inr hx => exact ne_of_isxdigit hdigit (by decide) hx
  unfold skipPrefix
  split
  · next x s htext => rw [if_neg fun h ↦ hsecond x s htext h.1, htext]
  · rfl

theorem skipPrefix_pre {pre digits rest : List Char}
    (hpre : pre = [] ∨ pre = ['0', 'x'] ∨ pre = ['0', 'X']) (hne : digits ≠ [])
    (hdigits : ∀ c ∈ digits, isxdigit c) (hrest : Stops rest) :
    skipPrefix (pre ++ (digits ++ rest)) = digits ++ rest := by
  have hhead : (digits ++ rest).head?.any isxdigit = true := by
    cases digits with
    | nil => exact absurd rfl hne
    | cons d ds => exact hdigits d List.mem_cons_self
  rcases hpre with rfl | rfl | rfl
  · rw [List.nil_append]
    exact skipPrefix_digits hdigits hrest
  · exact if_pos ⟨Or.inl rfl, hhead⟩
  · exact if_pos ⟨Or.inr rfl, hhead⟩

theorem skipSign_sign {sign body : List Char} (hsign : sign = [] ∨ sign = ['+'] ∨ sign = ['-'])
    (hbody : ∀ c ∈ body.head?, isxdigit c) :
    skipSign (sign ++ body) = (sign == ['-'], body) := by
  rcases hsign with rfl | rfl | rfl
  · rw [List.nil_append]
    unfold skipSign
    split
    · exact absurd (hbody '-' rfl) (by decide)
    · exact absurd (hbody '+' rfl) (by decide)
    · rfl
  · rfl
  · rfl

theorem strtoul_write (lead : Lead) {digits rest : List Char} (hne : digits ≠ [])
    (hdigits : ∀ c ∈ digits, isxdigit c) (hrest : Stops rest) :
    strtoul (lead.write digits ++ rest) = (toUlong lead.negative (hexValue digits), rest) := by
  have hbody : ∀ c ∈ (lead.pre ++ (digits ++ rest)).head?, isxdigit c := by
    intro c hc
    rcases lead.pre_cases with h | h | h
    · cases digits with
      | nil => exact absurd rfl hne
      | cons d ds =>
        rw [h] at hc
        cases hc
        exact hdigits c List.mem_cons_self
    all_goals
      rw [h] at hc
      cases hc
      decide
  have hnospace : ∀ c ∈ (lead.sign ++ (lead.pre ++ (digits ++ rest))).head?, ¬ isspace c := by
    intro c hc
    rcases lead.sign_cases with h | h | h
    · rw [h] at hc
      exact not_isspace_of_isxdigit (hbody c hc)
    all_goals
      rw [h] at hc
      cases hc
      decide
  have hspace : (lead.write digits ++ rest).dropWhile isspace =
      lead.sign ++ (lead.pre ++ (digits ++ rest)) := by
    have htext : lead.write digits ++ rest =
        lead.space ++ (lead.sign ++ (lead.pre ++ (digits ++ rest))) := by
      simp only [Lead.write, List.append_assoc]
    rw [htext, dropWhile_append_stop lead.space_isspace hnospace]
  have hsign := skipSign_sign lead.sign_cases hbody
  have hpre := skipPrefix_pre lead.pre_cases hne hdigits hrest
  have htake := takeWhile_append_stop hdigits (not_isxdigit_of_stops hrest)
  have hdrop := dropWhile_append_stop hdigits (not_isxdigit_of_stops hrest)
  simp only [strtoul, hspace, hsign, hpre, htake, hdrop, if_neg hne]
  rfl

theorem exists_sign (s : List Char) : ∃ sign, (sign = [] ∨ sign = ['+'] ∨ sign = ['-']) ∧
    (skipSign s).1 = (sign == ['-']) ∧ s = sign ++ (skipSign s).2 := by
  unfold skipSign
  split
  · exact ⟨['-'], Or.inr (Or.inr rfl), rfl, rfl⟩
  · exact ⟨['+'], Or.inr (Or.inl rfl), rfl, rfl⟩
  · exact ⟨[], Or.inl rfl, rfl, rfl⟩

theorem exists_pre (s : List Char) :
    ∃ pre, (pre = [] ∨ pre = ['0', 'x'] ∨ pre = ['0', 'X']) ∧ s = pre ++ skipPrefix s := by
  unfold skipPrefix
  split
  · next x s =>
    split_ifs with h
    · cases h.1 with
      | inl hx => exact ⟨['0', 'x'], Or.inr (Or.inl rfl), by rw [hx]; rfl⟩
      | inr hx => exact ⟨['0', 'X'], Or.inr (Or.inr rfl), by rw [hx]; rfl⟩
    · exact ⟨[], Or.inl rfl, rfl⟩
  · exact ⟨[], Or.inl rfl, rfl⟩

/-- Whatever is converted was written with a lead and digits. -/
theorem strtoul_cases (s : List Char) :
    strtoul s = (0, s) ∨ ∃ (lead : Lead) (digits e : List Char), s = lead.write digits ++ e ∧
      digits ≠ [] ∧ (∀ c ∈ digits, isxdigit c) ∧
      strtoul s = (toUlong lead.negative (hexValue digits), e) := by
  obtain ⟨sign, hsign, hneg, hs1⟩ := exists_sign (s.dropWhile isspace)
  obtain ⟨pre, hpre, hs2⟩ := exists_pre (skipSign (s.dropWhile isspace)).2
  have hspace : ∀ c ∈ s.takeWhile isspace, isspace c :=
    List.all_eq_true.mp List.all_takeWhile
  have hdigits : ∀ c ∈ (skipPrefix (skipSign (s.dropWhile isspace)).2).takeWhile isxdigit,
      isxdigit c := List.all_eq_true.mp List.all_takeWhile
  by_cases hnone : (skipPrefix (skipSign (s.dropWhile isspace)).2).takeWhile isxdigit = []
  · left
    rw [strtoul, if_pos hnone]
  · right
    use ⟨s.takeWhile isspace, sign, pre, hspace, hsign, hpre⟩,
      (skipPrefix (skipSign (s.dropWhile isspace)).2).takeWhile isxdigit,
      (skipPrefix (skipSign (s.dropWhile isspace)).2).dropWhile isxdigit
    refine ⟨?_, hnone, hdigits, ?_⟩
    · calc s = s.takeWhile isspace ++ s.dropWhile isspace := List.takeWhile_append_dropWhile.symm
        _ = s.takeWhile isspace ++ (sign ++ (pre ++ skipPrefix (skipSign (s.dropWhile isspace)).2)) := by
          rw [← hs2, ← hs1]
        _ = _ := by
          simp only [Lead.write, List.append_assoc, List.takeWhile_append_dropWhile]
    · rw [strtoul, if_neg hnone, hneg]
      rfl

/-- A text that is a number of this value, with whatever may stand in front of the digits. -/
def Numeral (t : List Char) (v : BitVec 64) : Prop :=
  ∃ (lead : Lead) (digits : List Char), t = lead.write digits ∧ digits ≠ [] ∧
    (∀ c ∈ digits, isxdigit c) ∧ v = toUlong lead.negative (hexValue digits)

theorem Numeral.strtoul_append {t rest : List Char} {v : BitVec 64} (h : Numeral t v)
    (hrest : Stops rest) : strtoul (t ++ rest) = (v, rest) := by
  obtain ⟨lead, digits, rfl, hne, hdigits, rfl⟩ := h
  exact strtoul_write lead hne hdigits hrest

theorem Numeral.ne_nil {t : List Char} {v : BitVec 64} (h : Numeral t v) : t ≠ [] := by
  obtain ⟨lead, digits, rfl, hne, -⟩ := h
  simp [Lead.write, hne]

theorem numeral_of_digits {g : List Char} (hne : g ≠ []) (hg : ∀ c ∈ g, isxdigit c)
    (hlt : hexValue g < 2 ^ 64) : Numeral g (BitVec.ofNat 64 (hexValue g)) := by
  refine ⟨Lead.none, g, rfl, hne, hg, ?_⟩
  rw [toUlong, if_neg (not_le.mpr hlt)]
  rfl

theorem strtoul_eq (s : List Char) :
    strtoul s = (0, s) ∨ ∃ t v e, s = t ++ e ∧ Numeral t v ∧ strtoul s = (v, e) := by
  apply (strtoul_cases s).imp_right
  intro ⟨lead, digits, e, hs, hne, hdigits, hrun⟩
  exact ⟨_, _, e, hs, ⟨lead, digits, rfl, hne, hdigits, rfl⟩, hrun⟩

theorem strtoul_colon (s : List Char) : strtoul (':' :: s) = (0, ':' :: s) := rfl

/-! ## Printing in hexadecimal -/

theorem digitValue?_digitChar {d : ℕ} (h : d < 16) : digitValue? d.digitChar = some d := by
  have hall : ∀ d : Fin 16, digitValue? (d.val.digitChar) = some d.val := by decide
  exact hall ⟨d, h⟩

theorem hexValue_append_digit (g : List Char) (c : Char) :
    hexValue (g ++ [c]) = 16 * hexValue g + (digitValue? c).getD 0 := by
  rw [hexValue, List.foldl_append]
  rfl

/-- What is printed with `%x` has digits only and stands for the number. -/
theorem toDigits_sixteen (n : ℕ) :
    (∀ c ∈ Nat.toDigits 16 n, isxdigit c) ∧ hexValue (Nat.toDigits 16 n) = n := by
  induction n using Nat.base_induction 16 (by decide) with
  | single m hm =>
    rw [Nat.toDigits_of_lt_base hm]
    have hdigit := digitValue?_digitChar hm
    constructor
    · intro c hc
      rw [List.mem_singleton.mp hc, isxdigit, hdigit]
      rfl
    · calc hexValue [m.digitChar] = 16 * 0 + (digitValue? m.digitChar).getD 0 := rfl
        _ = m := by rw [hdigit]; simp
  | digit m k hk hm ih =>
    rw [← Nat.toDigits_append_toDigits (by decide) hm hk, Nat.toDigits_of_lt_base hk]
    have hdigit := digitValue?_digitChar hk
    constructor
    · intro c hc
      cases List.mem_append.mp hc with
      | inl hc => exact ih.1 c hc
      | inr hc =>
        rw [List.mem_singleton.mp hc, isxdigit, hdigit]
        rfl
    · rw [hexValue_append_digit, ih.2, hdigit]
      rfl

theorem digitValue_lt (c : Char) : (digitValue? c).getD 0 < 16 := by
  have hle : ∀ d : Char, c ≤ d → c.toNat ≤ d.toNat := fun d h ↦ h
  unfold digitValue?
  split_ifs with h h h
  · have hc := hle '9' h.2
    have hnine : '9'.toNat = 57 := rfl
    change c.toNat - 48 < 16
    omega
  · have hc := hle 'f' h.2
    have hf : 'f'.toNat = 102 := rfl
    change c.toNat - 97 + 10 < 16
    omega
  · have hc := hle 'F' h.2
    have hf : 'F'.toNat = 70 := rfl
    change c.toNat - 65 + 10 < 16
    omega
  · decide

theorem hexValue_lt (g : List Char) : hexValue g < 16 ^ g.length := by
  induction g using List.reverseRecOn with
  | nil => decide
  | append_singleton g c ih =>
    have hc := digitValue_lt c
    rw [hexValue_append_digit, List.length_append, List.length_singleton, pow_succ]
    omega

end InetManet.CString
