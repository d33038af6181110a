import InetManet.Library.CString
import InetManet.Network.IPv6Prefix

/-!
# Colon-hexadecimal text

Writing an IPv6 address as groups of hexadecimal digits, with the longest run of zeros left out, and
reading it back. The numbers are read by `strtoul`, which takes more than groups of up to four digits,
and `::` may also stand beside eight groups.
-/

namespace InetManet.IPv6Words

open CString

/-- The numbers that are read, and `s` afterwards. The eighth number ends the loop. -/
def parseOctals : ℕ → List Char → List (BitVec 32) → List (BitVec 32) × List Char
  | 0, s, octals => (octals, s)
  | rounds + 1, s, octals =>
    let value := strtoul s
    let octal : BitVec 32 := value.1.setWidth 32
    -- without a digit the colon that was skipped is given back
    if s = value.2 then (octals, if octals.length ≠ 0 then ':' :: s else s)
    else if octal.toInt < 0 ∨ octal.toInt > 0xffff then (octals, s)
    else
      let octals := octals ++ [octal]
      match value.2 with
      | ':' :: s' => if octals.length = 8 then (octals, ':' :: s') else parseOctals rounds s' octals
      | s => (octals, s)

/-- `octals[]` after the numbers behind the `::` were put at its end. -/
def mergeOctals (octals suffixOctals : List (BitVec 32)) : List (BitVec 32) :=
  octals ++ (List.range' octals.length (8 - octals.length)).map fun i : ℕ ↦
    let j : ℤ := (i : ℤ) - 8 + suffixOctals.length
    if j < 0 then 0 else suffixOctals.getD j.toNat 0

/-- `d[i] = (octals[i*2]<<16) + octals[2*i + 1]`. -/
def wordsOf (octals : List (BitVec 32)) : IPv6Words := fun i ↦
  (octals.getD (i.val * 2) 0 <<< 16) + octals.getD (2 * i.val + 1) 0

/-- What is left of the text and the words that are stored; the words are stored only on success. -/
def doTryParse (addr : List Char) : Option (List Char × IPv6Words) :=
  if addr = "<unspec>".toList then some ([], fun _ ↦ 0)
  else
    let first := parseOctals 8 addr []
    match first.2 with
    | ':' :: ':' :: addr =>
      let second := parseOctals 8 addr []
      if first.1.length + second.1.length > 8 then none  -- too many
      else some (second.2, wordsOf (mergeOctals first.1 second.1))
    | addr => if first.1.length ≠ 8 then none else some (addr, wordsOf first.1)

/-- The result, and the address `d` after the call. -/
def tryParse (d : IPv6Words) (addr : List Char) : Bool × IPv6Words :=
  match doTryParse addr with
  | none => (false, d)
  | some (rest, d') => (rest = [], d')

/-- The loop over `octals` from `i` on, with `beg` (`none` is -1) and the longest run so far. -/
def findGapLoop : List (BitVec 32) → ℕ → Option ℕ → ℕ × ℕ → Option ℕ × (ℕ × ℕ)
  | [], _, beg, gap => (beg, gap)
  | octal :: octals, i, none, gap =>
    findGapLoop octals (i + 1) (if octal = 0 then some i else none) gap
  | octal :: octals, i, some beg, gap =>
    if octal ≠ 0 then
      findGapLoop octals (i + 1) none
        (if i - beg ≥ 2 ∧ i - beg > gap.2 - gap.1 then (beg, i) else gap)
    else findGapLoop octals (i + 1) (some beg) gap

/-- Start and end of the longest run of zeros, at least two of them. -/
def findGap (octals : List (BitVec 32)) : ℕ × ℕ :=
  match findGapLoop octals 0 none (0, 0) with
  | (some beg, gap) => if beg ≤ 6 ∧ 8 - beg > gap.2 - gap.1 then (beg, 8) else gap
  | (none, gap) => gap

/-- `%x`. -/
def printOctal (octal : BitVec 32) : List Char := Nat.toDigits 16 octal.toNat

def printOctals (octals : List (BitVec 32)) : List Char :=
  [':'].intercalate (octals.map printOctal)

def str (d : IPv6Words) : List Char :=
  if d = fun _ ↦ 0 then "<unspec>".toList
  else
    let octals := octalsOf d
    let gap := findGap octals
    if gap.1 = 0 ∧ gap.2 = 8 then "::0".toList
    else
      printOctals (octals.take gap.1) ++ (if gap.1 ≠ gap.2 then "::".toList else []) ++
        printOctals (octals.drop gap.2)

/-! ## The grammar -/

/-- One to four hexadecimal digits. -/
def IsGroup (g : List Char) : Prop := g ≠ [] ∧ g.length ≤ 4 ∧ ∀ c ∈ g, isxdigit c

def groupValue (g : List Char) : BitVec 32 := BitVec.ofNat 32 (hexValue g)

/-- Eight groups, or fewer with `::` in place of the zeros, and the eight units they stand for. -/
inductive Grammar : List Char → List (BitVec 32) → Prop
  | full (groups : List (List Char)) (h : groups.length = 8) (hgroups : ∀ g ∈ groups, IsGroup g) :
      Grammar ([':'].intercalate groups) (groups.map groupValue)
  | gap (pre suf : List (List Char)) (h : pre.length + suf.length < 8)
      (hgroups : ∀ g ∈ pre ++ suf, IsGroup g) :
      Grammar ([':'].intercalate pre ++ "::".toList ++ [':'].intercalate suf)
        (pre.map groupValue ++ List.replicate (8 - (pre.length + suf.length)) 0 ++
          suf.map groupValue)

/-- A text that `strtoul` takes as a number of 16 bits. -/
def Octal (g : List Char) (octal : BitVec 32) : Prop :=
  ∃ v, Numeral g v ∧ octal = v.setWidth 32 ∧ ¬ (octal.toInt < 0 ∨ octal.toInt > 0xffff)

/-- A text that is read, but with a group in it that is not written with one to four digits alone
(white space, a sign, `0x`, more digits), or with eight groups beside the `::`. -/
def Irregular (s : List Char) : Prop :=
  (∃ texts, s = [':'].intercalate texts ∧ texts.length = 8 ∧ (∀ g ∈ texts, ∃ octal, Octal g octal) ∧
    ∃ g ∈ texts, ¬ IsGroup g) ∨
  ∃ pre suf, s = [':'].intercalate pre ++ "::".toList ++ [':'].intercalate suf ∧
    (∀ g ∈ pre ++ suf, ∃ octal, Octal g octal) ∧
    (pre.length + suf.length = 8 ∨
      pre.length + suf.length < 8 ∧ ∃ g ∈ pre ++ suf, ¬ IsGroup g)

/-! ## Reading the groups -/

theorem intercalate_cons (t : List Char) (ts : List (List Char)) :
    [':'].intercalate (t :: ts) = t ++ ts.flatMap (':' :: ·) := by
  induction ts generalizing t with
  | nil => rw [List.intercalate_singleton, List.flatMap_nil, List.append_nil]
  | cons t' ts ih =>
    rw [List.intercalate_cons_cons, ih, List.flatMap_cons, List.append_assoc]
    rfl

/-- One round finds no number, or one that is too large, or a group; only in front of a colon it
goes on. -/
theorem parseOctals_cases (rounds : ℕ) (s : List Char) (octals : List (BitVec 32)) :
    parseOctals (rounds + 1) s octals = (octals, if octals.length ≠ 0 then ':' :: s else s) ∨
      (s ≠ [] ∧ ':' ∉ s.head? ∧ parseOctals (rounds + 1) s octals = (octals, s)) ∨
      ∃ t e octal, s = t ++ e ∧ Octal t octal ∧
        (parseOctals (rounds + 1) s octals = (octals ++ [octal], e) ∨
          ∃ s', e = ':' :: s' ∧ (octals ++ [octal]).length ≠ 8 ∧
            parseOctals (rounds + 1) s octals = parseOctals rounds s' (octals ++ [octal])) := by
  rw [parseOctals]
  cases strtoul_eq s with
  | inl hnone =>
    left
    rw [hnone, if_pos rfl]
  | inr hsome =>
    obtain ⟨t, v, e, rfl, hnumeral, hrun⟩ := hsome
    right
    have hmoved : t ++ e ≠ e := by
      intro h
      exact hnumeral.ne_nil (List.append_left_eq_self.mp h)
    rw [hrun, if_neg hmoved]
    by_cases hbig : (v.setWidth 32).toInt < 0 ∨ (v.setWidth 32).toInt > 0xffff
    · left
      rw [if_pos hbig]
      refine ⟨List.append_ne_nil_of_left_ne_nil hnumeral.ne_nil e, ?_, rfl⟩
      intro hcolon
      cases hte : t ++ e with
      | nil =>
        rw [hte] at hcolon
        cases hcolon
      | cons c rest =>
        rw [hte] at hcolon hrun hmoved
        cases hcolon
        rw [strtoul_colon] at hrun
        exact hmoved (congrArg Prod.snd hrun)
    · right
      rw [if_neg hbig]
      refine ⟨t, e, v.setWidth 32, rfl, ⟨v, hnumeral, rfl, hbig⟩, ?_⟩
      split
      · next s' he =>
        cases he
        by_cases hfull : (octals ++ [v.setWidth 32]).length = 8
        · left
          rw [if_pos hfull]
        · right
          exact ⟨s', rfl, hfull, if_neg hfull⟩
      · left
        rfl

/-- Once a number has been read, the text consists of groups with a colon in front and of what
follows them, or of a colon and something too large. -/
theorem parseOctals_sound_of_ne_nil {rounds : ℕ} {s rest : List Char}
    {octals out : List (BitVec 32)} (hne : octals ≠ []) (hrounds : octals.length + rounds = 8)
    (h : parseOctals rounds s octals = (out, rest)) (hlt : octals.length < 8) :
    ∃ texts vals, List.Forall₂ Octal texts vals ∧ out = octals ++ vals ∧
      (':' :: s = texts.flatMap (':' :: ·) ++ rest ∨
        (':' :: s = texts.flatMap (':' :: ·) ++ ':' :: rest ∧ rest ≠ [] ∧ ':' ∉ rest.head?)) := by
  induction rounds generalizing s octals with
  | zero => omega
  | succ rounds ih =>
    have hlen : octals.length ≠ 0 := fun h ↦ hne (List.length_eq_zero_iff.mp h)
    rcases parseOctals_cases rounds s octals with hrun | ⟨hs, hcolon, hrun⟩ |
      ⟨t, e, octal, rfl, hoctal, hrun | ⟨s', rfl, hfull, hrun⟩⟩
    · rw [hrun, if_pos hlen] at h
      cases h
      exact ⟨[], [], .nil, (List.append_nil _).symm, Or.inl rfl⟩
    · rw [hrun] at h
      cases h
      exact ⟨[], [], .nil, (List.append_nil _).symm, Or.inr ⟨rfl, hs, hcolon⟩⟩
    · rw [hrun] at h
      cases h
      refine ⟨[t], [octal], .cons hoctal .nil, rfl, Or.inl ?_⟩
      simp
    · rw [hrun] at h
      have hlen' : (octals ++ [octal]).length = octals.length + 1 := List.length_append
      obtain ⟨texts, vals, hall, rfl, htext⟩ := ih (List.append_ne_nil_of_right_ne_nil _ (by simp))
        (by omega) h (by omega)
      refine ⟨t :: texts, octal :: vals, .cons hoctal hall, by simp, ?_⟩
      simpa using htext

/-- The text is groups with colons between them and a rest, before which a colon is lost if a number
is too large. -/
theorem parseOctals_sound {s rest : List Char} {out : List (BitVec 32)}
    (h : parseOctals 8 s [] = (out, rest)) :
    ∃ texts, List.Forall₂ Octal texts out ∧
      (s = [':'].intercalate texts ++ rest ∨
        (s = [':'].intercalate texts ++ ':' :: rest ∧ rest ≠ [] ∧ ':' ∉ rest.head?)) := by
  rcases parseOctals_cases 7 s [] with hrun | ⟨-, -, hrun⟩ |
    ⟨t, e, octal, rfl, hoctal, hrun | ⟨s', rfl, -, hrun⟩⟩
  · rw [hrun] at h
    cases h
    exact ⟨[], .nil, Or.inl rfl⟩
  · rw [hrun] at h
    cases h
    exact ⟨[], .nil, Or.inl rfl⟩
  · rw [hrun] at h
    cases h
    refine ⟨[t], .cons hoctal .nil, Or.inl ?_⟩
    rw [List.intercalate_singleton]
  · rw [hrun] at h
    obtain ⟨texts, vals, hall, rfl, htext⟩ :=
      parseOctals_sound_of_ne_nil (List.cons_ne_nil octal []) rfl h (by simp)
    refine ⟨t :: texts, .cons hoctal hall, ?_⟩
    rw [intercalate_cons, List.append_assoc, List.append_assoc]
    exact htext.imp (congrArg (t ++ ·)) fun h ↦ ⟨congrArg (t ++ ·) h.1, h.2⟩

theorem stops_nil : Stops [] := nofun

theorem stops_colon (s : List Char) : Stops (':' :: s) := by
  intro c hc
  cases hc
  rfl

theorem parseOctals_group_end {g : List Char} {octal : BitVec 32} (h : Octal g octal) (rounds : ℕ)
    (octals : List (BitVec 32)) : parseOctals (rounds + 1) g octals = (octals ++ [octal], []) := by
  obtain ⟨v, hnumeral, rfl, hsmall⟩ := h
  have hrun : strtoul (g ++ []) = (v, []) := hnumeral.strtoul_append stops_nil
  rw [List.append_nil] at hrun
  rw [parseOctals, hrun, if_neg hnumeral.ne_nil, if_neg hsmall]

theorem parseOctals_group_colon {g : List Char} {octal : BitVec 32} (h : Octal g octal) (rounds : ℕ)
    (octals : List (BitVec 32)) (s : List Char) :
    parseOctals (rounds + 1) (g ++ ':' :: s) octals =
      if (octals ++ [octal]).length = 8 then (octals ++ [octal], ':' :: s)
      else parseOctals rounds s (octals ++ [octal]) := by
  obtain ⟨v, hnumeral, rfl, hsmall⟩ := h
  have hmoved : g ++ ':' :: s ≠ ':' :: s := fun h ↦ hnumeral.ne_nil (List.append_left_eq_self.mp h)
  rw [parseOctals, hnumeral.strtoul_append (stops_colon s), if_neg hmoved, if_neg hsmall]
  rfl

/-- At the end of the text or in front of `::` no number is found. -/
def Ends (rest : List Char) : Prop := rest = [] ∨ ∃ s, rest = ':' :: ':' :: s

theorem parseOctals_colon (rounds : ℕ) (s : List Char) {octals : List (BitVec 32)}
    (hne : octals ≠ []) : parseOctals rounds (':' :: s) octals = (octals, ':' :: ':' :: s) ∨
      rounds = 0 := by
  cases rounds with
  | zero => exact Or.inr rfl
  | succ rounds =>
    left
    have hlen : octals.length ≠ 0 := fun h ↦ hne (List.length_eq_zero_iff.mp h)
    rw [parseOctals, strtoul_colon, if_pos rfl, if_pos hlen]

/-- Groups with colons between them are read one after the other. -/
theorem parseOctals_complete {texts : List (List Char)} {vals : List (BitVec 32)}
    (h : List.Forall₂ Octal texts vals) {rest : List Char} (hrest : Ends rest) (hne : texts ≠ [])
    {rounds : ℕ} {octals : List (BitVec 32)} (hrounds : octals.length + rounds = 8)
    (hfit : texts.length ≤ rounds) :
    parseOctals rounds ([':'].intercalate texts ++ rest) octals = (octals ++ vals, rest) := by
  induction h generalizing rounds octals with
  | nil => exact absurd rfl hne
  | @cons t octal texts vals hoctal hall ih =>
    match rounds with
    | rounds + 1 =>
      have hlen : (octals ++ [octal]).length = octals.length + 1 := List.length_append
      cases hall with
      | nil =>
        rw [List.intercalate_singleton]
        rcases hrest with rfl | ⟨s, rfl⟩
        · rw [List.append_nil, parseOctals_group_end hoctal]
        · rw [parseOctals_group_colon hoctal]
          split_ifs with hfull
          · rfl
          · have hsome : octals ++ [octal] ≠ [] := List.append_ne_nil_of_right_ne_nil _ (by simp)
            exact (parseOctals_colon rounds s hsome).resolve_right (by omega)
      | @cons t' octal' texts vals hoctal' hall =>
        have hfit' : (t' :: texts).length ≤ rounds := Nat.le_of_succ_le_succ hfit
        have hmore : (octals ++ [octal]).length ≠ 8 := by
          rw [List.length_cons] at hfit'
          omega
        calc parseOctals (rounds + 1) ([':'].intercalate (t :: t' :: texts) ++ rest) octals
            = parseOctals (rounds + 1)
                (t ++ ':' :: ([':'].intercalate (t' :: texts) ++ rest)) octals := by
              rw [List.intercalate_cons_cons, List.append_assoc, List.append_assoc]
              rfl
          _ = parseOctals rounds ([':'].intercalate (t' :: texts) ++ rest) (octals ++ [octal]) := by
              rw [parseOctals_group_colon hoctal, if_neg hmore]
          _ = (octals ++ [octal] ++ (octal' :: vals), rest) :=
              ih (List.cons_ne_nil _ _) (by omega) hfit'
          _ = (octals ++ (octal :: octal' :: vals), rest) := by
              rw [List.append_assoc]
              rfl

theorem parseOctals_start {texts : List (List Char)} {vals : List (BitVec 32)}
    (h : List.Forall₂ Octal texts vals) {rest : List Char} (hrest : Ends rest)
    (hfit : vals.length ≤ 8) :
    parseOctals 8 ([':'].intercalate texts ++ rest) [] = (vals, rest) := by
  have hlen := h.length_eq
  cases h with
  | nil =>
    rcases hrest with rfl | ⟨s, rfl⟩
    · rfl
    · change parseOctals (7 + 1) (':' :: ':' :: s) [] = _
      rw [parseOctals, strtoul_colon, if_pos rfl]
      rfl
  | cons hoctal hall =>
    exact parseOctals_complete (.cons hoctal hall) hrest (List.cons_ne_nil _ _) rfl (by omega)

/-! ## Whole texts -/

theorem mergeOctals_eq {pre suf : List (BitVec 32)} (h : pre.length + suf.length ≤ 8) :
    mergeOctals pre suf = pre ++ List.replicate (8 - (pre.length + suf.length)) 0 ++ suf := by
  rw [mergeOctals, List.append_assoc]
  congr 1
  apply List.ext_getElem
  · simp
    omega
  · intro i hi hi'
    rw [List.length_map, List.length_range'] at hi
    simp only [List.getElem_map, List.getElem_range', List.getElem_append, List.length_replicate,
      List.getElem_replicate]
    split_ifs with hneg hzero hzero
    · rfl
    · omega
    · omega
    · have hj : ((((pre.length + 1 * i : ℕ) : ℤ) - 8 + suf.length).toNat) =
          i - (8 - (pre.length + suf.length)) := by omega
      rw [hj, List.getD_eq_getElem?_getD, List.getElem?_eq_getElem (by omega)]
      rfl

/-- The texts that are read to their end, and the eight units that are stored for them. -/
inductive Reads : List Char → List (BitVec 32) → Prop
  | full {texts vals} (h : List.Forall₂ Octal texts vals) (h8 : vals.length = 8) :
      Reads ([':'].intercalate texts) vals
  | gap {pre suf pvals svals} (hpre : List.Forall₂ Octal pre pvals)
      (hsuf : List.Forall₂ Octal suf svals) (h8 : pvals.length + svals.length ≤ 8) :
      Reads ([':'].intercalate pre ++ "::".toList ++ [':'].intercalate suf) (mergeOctals pvals svals)

theorem parseOctals_unspec : parseOctals 8 "<unspec>".toList [] = ([], "<unspec>".toList) := by
  decide

theorem Reads.ne_unspec {s : List Char} {octals : List (BitVec 32)} (h : Reads s octals) :
    s ≠ "<unspec>".toList := by
  intro hs
  cases h with
  | @full texts vals hall h8 =>
    have hrun := parseOctals_start hall (Or.inl rfl) h8.le
    rw [List.append_nil, hs, parseOctals_unspec] at hrun
    cases hrun
  | @gap pre suf pvals svals hpre hsuf h8 =>
    have hrun := parseOctals_start hpre (Or.inr ⟨[':'].intercalate suf, rfl⟩) (by omega)
    rw [List.append_assoc] at hs
    rw [show ':' :: ':' :: [':'].intercalate suf = "::".toList ++ [':'].intercalate suf from rfl, hs,
      parseOctals_unspec] at hrun
    cases hrun

theorem doTryParse_of_reads {s : List Char} {octals : List (BitVec 32)} (h : Reads s octals) :
    doTryParse s = some ([], wordsOf octals) := by
  rw [doTryParse, if_neg h.ne_unspec]
  cases h with
  | @full texts vals hall h8 =>
    have hrun := parseOctals_start hall (Or.inl rfl) h8.le
    rw [List.append_nil] at hrun
    rw [hrun]
    exact if_neg (not_not_intro h8)
  | @gap pre suf pvals svals hpre hsuf h8 =>
    have htext : [':'].intercalate pre ++ "::".toList ++ [':'].intercalate suf =
        [':'].intercalate pre ++ ':' :: ':' :: [':'].intercalate suf := by
      rw [List.append_assoc]
      rfl
    have hrun := parseOctals_start hpre (Or.inr ⟨[':'].intercalate suf, rfl⟩) (by omega)
    have hrun' := parseOctals_start hsuf (Or.inl rfl) (by omega)
    rw [List.append_nil] at hrun'
    rw [htext, hrun]
    simp only [hrun']
    exact if_neg (not_lt.mpr h8)

/-- Where it succeeds, the text starts with one that is read to its end. -/
theorem doTryParse_sound {s rest : List Char} {d' : IPv6Words} (h : doTryParse s = some (rest, d')) :
    (s = "<unspec>".toList ∧ rest = [] ∧ d' = fun _ ↦ 0) ∨
      ∃ p octals, Reads p octals ∧ d' = wordsOf octals ∧
        (s = p ++ rest ∨ (s = p ++ ':' :: rest ∧ rest ≠ [])) := by
  rw [doTryParse] at h
  split_ifs at h with hspec
  · cases h
    exact Or.inl ⟨hspec, rfl, rfl⟩
  · right
    obtain ⟨pre, hpre, htext⟩ := parseOctals_sound (Prod.eta (parseOctals 8 s [])).symm
    simp only at h
    split at h
    · next s2 hfirst =>
      obtain ⟨suf, hsuf, htext'⟩ := parseOctals_sound (Prod.eta (parseOctals 8 s2 [])).symm
      obtain ⟨hle, h⟩ := Option.ite_none_left_eq_some.mp h
      cases h
      refine ⟨_, _, .gap hpre hsuf (not_lt.mp hle), rfl, ?_⟩
      rw [hfirst] at htext
      have hs : s = [':'].intercalate pre ++ "::".toList ++ s2 := by
        rw [List.append_assoc]
        exact htext.resolve_right fun h ↦ h.2.2 rfl
      rw [hs, List.append_assoc _ ([':'].intercalate suf), List.append_assoc _ ([':'].intercalate suf)]
      exact htext'.imp (congrArg _) fun h ↦ ⟨congrArg _ h.1, h.2.1⟩
    · next hfirst =>
      obtain ⟨h8, h⟩ := Option.ite_none_left_eq_some.mp h
      cases h
      refine ⟨_, _, .full hpre (not_not.mp h8), rfl, ?_⟩
      exact htext.imp_right fun h ↦ ⟨h.1, h.2.1⟩

/-! ## The grammar and what is read -/

theorem IsGroup.octal {g : List Char} (h : IsGroup g) : Octal g (groupValue g) := by
  have hlt : hexValue g < 65536 := calc
    hexValue g < 16 ^ g.length := hexValue_lt g
    _ ≤ 16 ^ 4 := Nat.pow_le_pow_right (by decide) h.2.1
    _ = 65536 := by decide
  have hwidth : (BitVec.ofNat 64 (hexValue g)).setWidth 32 = groupValue g := by
    apply BitVec.eq_of_toNat_eq
    rw [groupValue, BitVec.toNat_setWidth, BitVec.toNat_ofNat, BitVec.toNat_ofNat]
    omega
  refine ⟨_, numeral_of_digits h.1 h.2.2 (by omega), hwidth.symm, ?_⟩
  rw [groupValue, BitVec.toInt_eq_toNat_cond, BitVec.toNat_ofNat]
  split_ifs <;> omega

theorem Octal.unique {g : List Char} {octal octal' : BitVec 32} (h : Octal g octal)
    (h' : Octal g octal') : octal = octal' := by
  obtain ⟨v, hnumeral, rfl, -⟩ := h
  obtain ⟨v', hnumeral', rfl, -⟩ := h'
  have hrun : strtoul (g ++ []) = (v, []) := hnumeral.strtoul_append stops_nil
  rw [hnumeral'.strtoul_append stops_nil] at hrun
  cases hrun
  rfl

theorem forall₂_octal {groups : List (List Char)} (h : ∀ g ∈ groups, IsGroup g) :
    List.Forall₂ Octal groups (groups.map groupValue) := by
  rw [List.forall₂_map_right_iff, List.forall₂_same]
  exact fun g hg ↦ (h g hg).octal

theorem eq_map_groupValue {texts : List (List Char)} {vals : List (BitVec 32)}
    (h : List.Forall₂ Octal texts vals) (hgroups : ∀ g ∈ texts, IsGroup g) :
    vals = texts.map groupValue := by
  induction h with
  | nil => rfl
  | cons hoctal hall ih =>
    rw [List.map_cons, ← ih fun g hg ↦ hgroups g (List.mem_cons_of_mem _ hg),
      hoctal.unique (hgroups _ List.mem_cons_self).octal]

theorem exists_octal {texts : List (List Char)} {vals : List (BitVec 32)}
    (h : List.Forall₂ Octal texts vals) : ∀ g ∈ texts, ∃ octal, Octal g octal := by
  induction h with
  | nil => exact List.forall_mem_nil _
  | cons hoctal hall ih => exact List.forall_mem_cons.mpr ⟨⟨_, hoctal⟩, ih⟩

theorem Grammar.reads {s : List Char} {octals : List (BitVec 32)} (h : Grammar s octals) :
    Reads s octals := by
  cases h with
  | full groups h8 hgroups => exact .full (forall₂_octal hgroups) (by rw [List.length_map, h8])
  | gap pre suf hlt hgroups =>
    have hpre := forall₂_octal fun g hg ↦ hgroups g (List.mem_append_left suf hg)
    have hsuf := forall₂_octal fun g hg ↦ hgroups g (List.mem_append_right pre hg)
    have hlen : (pre.map groupValue).length + (suf.map groupValue).length =
        pre.length + suf.length := by
      rw [List.length_map, List.length_map]
    have hreads := Reads.gap hpre hsuf (by omega)
    rwa [mergeOctals_eq (by omega), hlen] at hreads

theorem Reads.grammar_or_irregular {s : List Char} {octals : List (BitVec 32)} (h : Reads s octals) :
    Grammar s octals ∨ Irregular s := by
  cases h with
  | @full texts vals hall h8 =>
    have hlen : texts.length = 8 := hall.length_eq.trans h8
    by_cases hgroups : ∀ g ∈ texts, IsGroup g
    · left
      rw [eq_map_groupValue hall hgroups]
      exact .full texts hlen hgroups
    · right
      left
      exact ⟨texts, rfl, hlen, exists_octal hall, by simpa using hgroups⟩
  | @gap pre suf pvals svals hpre hsuf h8 =>
    have hlen : pvals.length + svals.length = pre.length + suf.length := by
      rw [hpre.length_eq, hsuf.length_eq]
    have hoctals : ∀ g ∈ pre ++ suf, ∃ octal, Octal g octal :=
      List.forall_mem_append.mpr ⟨exists_octal hpre, exists_octal hsuf⟩
    by_cases hfull : pre.length + suf.length = 8
    · right
      right
      exact ⟨pre, suf, rfl, hoctals, Or.inl hfull⟩
    · by_cases hgroups : ∀ g ∈ pre ++ suf, IsGroup g
      · left
        rw [mergeOctals_eq h8, hlen]
        rw [eq_map_groupValue hpre fun g hg ↦ hgroups g (List.mem_append_left suf hg),
          eq_map_groupValue hsuf fun g hg ↦ hgroups g (List.mem_append_right pre hg)]
        exact .gap pre suf (by omega) hgroups
      · right
        right
        refine ⟨pre, suf, rfl, hoctals, Or.inr ⟨by omega, ?_⟩⟩
        simpa only [not_forall, exists_prop] using hgroups

theorem tryParse_of_reads (d : IPv6Words) {s : List Char} {octals : List (BitVec 32)}
    (h : Reads s octals) : tryParse d s = (true, wordsOf octals) := by
  rw [tryParse, doTryParse_of_reads h]
  rfl

/-- What the parser does with one text. -/
structure Parses (d : IPv6Words) (s : List Char) : Prop where
  grammar : ∀ octals, Grammar s octals → tryParse d s = (true, wordsOf octals)
  unspecified : s = "<unspec>".toList → tryParse d s = (true, fun _ ↦ 0)
  accepted : (tryParse d s).1 = true →
    s = "<unspec>".toList ∨ (∃ octals, Grammar s octals) ∨ Irregular s
  /-- The address is only written if the text starts with one. -/
  refused : (tryParse d s).1 = false → (tryParse d s).2 = d ∨
    ∃ p rest, rest ≠ [] ∧ s = p ++ rest ∧ tryParse d p = (true, (tryParse d s).2)

theorem parses (d : IPv6Words) (s : List Char) : Parses d s := by
  constructor
  · intro octals h
    exact tryParse_of_reads d h.reads
  · intro hs
    rw [hs]
    rfl
  · intro h
    rw [tryParse] at h
    split at h
    · cases h
    · next rest d' hrun =>
      have hrest : rest = [] := of_decide_eq_true h
      rcases doTryParse_sound hrun with ⟨hs, -, -⟩ | ⟨p, octals, hreads, -, hs | ⟨-, hne⟩⟩
      · exact Or.inl hs
      · rw [hrest, List.append_nil] at hs
        rw [hs]
        exact Or.inr (hreads.grammar_or_irregular.imp_left fun h ↦ ⟨octals, h⟩)
      · exact absurd hrest hne
  · intro h
    rw [tryParse] at h ⊢
    split at h
    · exact Or.inl rfl
    · next rest d' hrun =>
      right
      have hrest : rest ≠ [] := of_decide_eq_false h
      rcases doTryParse_sound hrun with ⟨-, hnil, -⟩ | ⟨p, octals, hreads, rfl, hs | ⟨hs, -⟩⟩
      · exact absurd hnil hrest
      · exact ⟨p, rest, hrest, hs, tryParse_of_reads d hreads⟩
      · exact ⟨p, ':' :: rest, List.cons_ne_nil _ _, hs, tryParse_of_reads d hreads⟩

/-- Acceptance of the grammar only, with the address left alone otherwise. -/
structure ParsesExactly (d : IPv6Words) (s : List Char) : Prop where
  accepted_iff : (tryParse d s).1 = true ↔ ∃ octals, Grammar s octals
  words : ∀ octals, Grammar s octals → (tryParse d s).2 = wordsOf octals
  refused : (tryParse d s).1 = false → (tryParse d s).2 = d

/-- The special text is accepted, though it is no list of groups. -/
theorem not_parsesExactly : ¬ ∀ d s, ParsesExactly d s := by
  intro h
  have hrun : (tryParse (fun _ ↦ 0) "<unspec>".toList).1 = true := by decide
  obtain ⟨octals, hgrammar⟩ := (h (fun _ ↦ 0) "<unspec>".toList).accepted_iff.mp hrun
  exact hgrammar.reads.ne_unspec rfl

/-! ## Printing and reading back -/

/-- A run of at least two zeros, or none. -/
def IsGap (octals : List (BitVec 32)) (gap : ℕ × ℕ) : Prop :=
  gap = (0, 0) ∨ gap.1 + 2 ≤ gap.2 ∧ gap.2 ≤ octals.length ∧
    ∀ j, gap.1 ≤ j → j < gap.2 → octals[j]? = some 0

/-- The run that is being counted, if there is one, reaches up to `n`. -/
def RunsTo (octals : List (BitVec 32)) (n : ℕ) (beg : Option ℕ) : Prop :=
  ∀ b, beg = some b → b ≤ n ∧ ∀ j, b ≤ j → j < n → octals[j]? = some 0

theorem runsTo_none {octals : List (BitVec 32)} {n : ℕ} : RunsTo octals n none := nofun

/-- The loop has seen `done`; what it counts is a run of zeros up to here. -/
theorem findGapLoop_isGap {all done octals : List (BitVec 32)} (hall : all = done ++ octals)
    {beg : Option ℕ} {gap : ℕ × ℕ} (hgap : IsGap all gap) (hbeg : RunsTo all done.length beg) :
    IsGap all (findGapLoop octals done.length beg gap).2 ∧
      RunsTo all all.length (findGapLoop octals done.length beg gap).1 := by
  induction octals generalizing done beg gap with
  | nil =>
    rw [List.append_nil] at hall
    rw [hall] at hgap hbeg ⊢
    exact ⟨hgap, hbeg⟩
  | cons octal octals ih =>
    have hall' : all = done ++ [octal] ++ octals := by rw [hall, List.append_assoc]; rfl
    have hlen : (done ++ [octal]).length = done.length + 1 := List.length_append
    have hhere : all[done.length]? = some octal := by
      rw [hall, List.getElem?_append_right le_rfl, Nat.sub_self]
      rfl
    cases beg with
    | none =>
      rw [findGapLoop, ← hlen]
      apply ih hall' hgap
      intro b hb
      split_ifs at hb with hzero
      cases hb
      refine ⟨by omega, fun j hj hj' ↦ ?_⟩
      have hjd : j = done.length := by omega
      rw [hjd, hhere, hzero]
    | some beg =>
      obtain ⟨hle, hzeros⟩ := hbeg beg rfl
      rw [findGapLoop, ← hlen]
      split_ifs with hzero hlong
      · apply ih hall' _ runsTo_none
        right
        refine ⟨by omega, ?_, hzeros⟩
        rw [hall, List.length_append]
        omega
      · exact ih hall' hgap runsTo_none
      · apply ih hall' hgap
        intro b hb
        cases hb
        refine ⟨by omega, fun j hj hj' ↦ ?_⟩
        by_cases hjd : j = done.length
        · rw [hjd, hhere, not_not.mp hzero]
        · exact hzeros j hj (by omega)

theorem findGap_isGap {octals : List (BitVec 32)} (h8 : octals.length = 8) :
    IsGap octals (findGap octals) := by
  have hnone : RunsTo octals ([] : List (BitVec 32)).length none := runsTo_none
  obtain ⟨hgap, hbeg⟩ := findGapLoop_isGap (List.nil_append octals).symm (Or.inl rfl) hnone
  rw [findGap]
  split
  · next beg gap hrun =>
    rw [List.length_nil, hrun] at hgap hbeg
    split_ifs with hlong
    · obtain ⟨-, hzeros⟩ := hbeg beg rfl
      exact Or.inr ⟨by omega, h8.ge, fun j hj hj' ↦ hzeros j hj (by omega)⟩
    · exact hgap
  · next gap hrun =>
    rw [List.length_nil, hrun] at hgap
    exact hgap

/-! ### Units and words -/

theorem halves (x : BitVec 32) : ((x >>> 16) <<< 16) + (x &&& 0xffff) = x := by
  apply BitVec.eq_of_toNat_eq
  have hlow : (x &&& 0xffff).toNat = x.toNat % 65536 := Nat.and_two_pow_sub_one_eq_mod x.toNat 16
  have hx := x.isLt
  rw [BitVec.toNat_add, hlow, BitVec.toNat_shiftLeft, BitVec.toNat_ushiftRight,
    Nat.shiftRight_eq_div_pow, Nat.shiftLeft_eq]
  omega

theorem wordsOf_octalsOf (d : IPv6Words) : wordsOf (octalsOf d) = d := by
  apply words_ext
  · exact halves (d 0)
  · exact halves (d 1)
  · exact halves (d 2)
  · exact halves (d 3)

theorem toNat_lt_of_mem_octalsOf (d : IPv6Words) : ∀ octal ∈ octalsOf d, octal.toNat < 2 ^ 16 := by
  have hhigh : ∀ x : BitVec 32, (x >>> 16).toNat < 2 ^ 16 := by
    intro x
    rw [BitVec.toNat_ushiftRight, Nat.shiftRight_eq_div_pow]
    have hx := x.isLt
    omega
  have hlow : ∀ x : BitVec 32, (x &&& 0xffff).toNat < 2 ^ 16 := by
    intro x
    have hlow : (x &&& 0xffff).toNat = x.toNat % 2 ^ 16 := Nat.and_two_pow_sub_one_eq_mod x.toNat 16
    omega
  simp only [octalsOf, List.forall_mem_cons, hhigh, hlow, true_and]
  exact List.forall_mem_nil _

theorem isGroup_printOctal {octal : BitVec 32} (h : octal.toNat < 2 ^ 16) :
    IsGroup (printOctal octal) := by
  refine ⟨Nat.toDigits_ne_nil, ?_, (toDigits_sixteen octal.toNat).1⟩
  exact (Nat.length_toDigits_le_iff (by decide) (by decide)).mpr h

theorem groupValue_printOctal (octal : BitVec 32) : groupValue (printOctal octal) = octal := by
  rw [groupValue, printOctal, (toDigits_sixteen octal.toNat).2, BitVec.ofNat_toNat,
    BitVec.setWidth_eq]

theorem map_groupValue_printOctal (octals : List (BitVec 32)) :
    (octals.map printOctal).map groupValue = octals := by
  rw [List.map_map]
  exact (List.map_congr_left fun octal _ ↦ groupValue_printOctal octal).trans (List.map_id octals)

theorem eq_around_gap {octals : List (BitVec 32)} {start stop : ℕ} (hle : start ≤ stop)
    (hstop : stop ≤ octals.length) (hzeros : ∀ j, start ≤ j → j < stop → octals[j]? = some 0) :
    octals.take start ++ List.replicate (stop - start) 0 ++ octals.drop stop = octals := by
  have hmid : (octals.drop start).take (stop - start) = List.replicate (stop - start) 0 := by
    rw [List.eq_replicate_iff]
    constructor
    · rw [List.length_take, List.length_drop]
      omega
    · intro x hx
      obtain ⟨i, hi, rfl⟩ := List.getElem_of_mem hx
      rw [List.length_take, List.length_drop] at hi
      have hzero := hzeros (start + i) (by omega) (by omega)
      rw [List.getElem?_eq_getElem (by omega)] at hzero
      rw [List.getElem_take, List.getElem_drop]
      exact Option.some.inj hzero
  calc octals.take start ++ List.replicate (stop - start) 0 ++ octals.drop stop
      = octals.take start ++ ((octals.drop start).take (stop - start) ++
          (octals.drop start).drop (stop - start)) := by
        rw [hmid, List.drop_drop, Nat.add_sub_cancel' hle, List.append_assoc]
    _ = octals := by rw [List.take_append_drop, List.take_append_drop]

theorem isGroup_map_printOctal {octals : List (BitVec 32)}
    (h : ∀ octal ∈ octals, octal.toNat < 2 ^ 16) :
    ∀ g ∈ octals.map printOctal, IsGroup g := by
  intro g hg
  obtain ⟨octal, hoctal, rfl⟩ := List.mem_map.mp hg
  exact isGroup_printOctal (h octal hoctal)

theorem wordsOf_zeros : wordsOf (List.replicate 8 0) = fun _ ↦ 0 := by
  decide

/-- What is printed is in the grammar and stands for the units of the address. -/
theorem grammar_str {d : IPv6Words} (hne : d ≠ fun _ ↦ 0) : Grammar (str d) (octalsOf d) := by
  have h8 : (octalsOf d).length = 8 := rfl
  have hsmall := toNat_lt_of_mem_octalsOf d
  have hwords := wordsOf_octalsOf d
  rw [str, if_neg hne]
  generalize octalsOf d = octals at *
  have hgap := findGap_isGap h8
  simp only
  generalize findGap octals = gap at hgap ⊢
  obtain ⟨start, stop⟩ := gap
  rcases hgap with hnone | ⟨hlong, hle, hzeros⟩
  · cases hnone
    have hfull := Grammar.full (octals.map printOctal) (by rw [List.length_map, h8])
      (isGroup_map_printOctal hsmall)
    rw [map_groupValue_printOctal] at hfull
    rw [if_neg (by decide), if_neg (by decide)]
    simpa [printOctals] using hfull
  · simp only at hlong hle hzeros
    have hparts := eq_around_gap (by omega) hle hzeros
    have hzero : ¬ (start = 0 ∧ stop = 8) := by
      intro hall
      rw [hall.1, hall.2] at hparts
      apply hne
      rw [← hwords, ← hparts, List.drop_eq_nil_of_le h8.le, List.take_zero, List.append_nil,
        List.nil_append]
      exact wordsOf_zeros
    have hlen : (octals.take start).length + (octals.drop stop).length = start + (8 - stop) := by
      rw [List.length_take, List.length_drop]
      omega
    have hgap := Grammar.gap ((octals.take start).map printOctal) ((octals.drop stop).map printOctal)
      (by rw [List.length_map, List.length_map]; omega) (by
        rw [← List.map_append]
        apply isGroup_map_printOctal
        intro octal hoctal
        apply hsmall
        rw [← List.take_append_drop start octals]
        cases List.mem_append.mp hoctal with
        | inl h => exact List.mem_append_left _ h
        | inr h =>
          apply List.mem_append_right
          rw [← Nat.add_sub_cancel' (by omega : start ≤ stop), ← List.drop_drop] at h
          exact List.mem_of_mem_drop h)
    have hfill : 8 - (start + (8 - stop)) = stop - start := by omega
    rw [map_groupValue_printOctal, map_groupValue_printOctal, List.length_map, List.length_map, hlen,
      hfill, hparts] at hgap
    rw [if_neg hzero, if_pos (by omega)]
    exact hgap

theorem tryParse_str (d a : IPv6Words) : tryParse d (str a) = (true, a) := by
  by_cases ha : a = fun _ ↦ 0
  · rw [str, if_pos ha, ha]
    rfl
  · rw [tryParse_of_reads d (grammar_str ha).reads, wordsOf_octalsOf]

end InetManet.IPv6Words
