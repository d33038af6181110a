import InetManet.Network.RoutingTableParser

/-!
# Routing files that can be read

The parser checks no bound. A file can be read if it is shorter than the array, its sections are closed by
their end tokens, and each word that is looked for in an entry or a route is there, is not too long and has
white space behind it.
-/

namespace InetManet.RoutingTableParser

open TransitionSystem ByteOrder

/-! ## Conditions -/

/-- A line that starts with the end token follows. -/
inductive Closed (endtoken : List Byte) : List Byte → Prop
  | here {file : List Byte} : endtoken <+: file → Closed endtoken file
  | line {file rest : List Byte} : skipLine file = .ok rest → Closed endtoken rest → Closed endtoken file

/-- The sections that start here are closed. -/
def SectionsFit (s : Scan) : Prop :=
  s.atLineStart = true →
    (ifconfigStartToken <+: s.file → Closed ifconfigEndToken s.file) ∧
    (routeStartToken <+: s.file → Closed routeEndToken s.file)

/-- The loop over the file ends here. -/
def Scan.AtEnd (s : Scan) : Prop := s.file = [] ∨ s.file.head? = some eof

def wordOf (str : List Byte) : List Byte := str.takeWhile fun b ↦ !isspace b

def afterWord (str : List Byte) : List Byte := str.dropWhile fun b ↦ !isspace b

/-- A word that fits into the buffer, with white space behind it. -/
def HasWord (str : List Byte) : Prop := afterWord str ≠ [] ∧ (wordOf str).length < maxEntryStringSize

/-- The entry here has a word, and an interface if it is about one. -/
def EntryFits (x : Option ℕ × List Byte) : Prop :=
  ∀ token entry, findEntry x.2 = some (token, entry) → (entry.usesInterface = true → x.1 ≠ none) ∧
    (entry ≠ .flag → HasWord (skipBlanks (x.2.drop token.length)))

/-- Each column has a word, up to the first one that is not accepted. -/
def ColumnsFit : List (List Byte → Bool) → List Byte → Prop
  | [], _ => True
  | accepts :: columns, str =>
    HasWord str ∧ (accepts (wordOf str) = true → ColumnsFit columns (skipBlanks (afterWord str)))

/-- The entries that are come to fit. -/
def InterfacesFit (env : Env) (ifconfigFile : List Byte) : Prop :=
  ∀ x, ComesTo (interfaceStep env) (none, ifconfigFile) x → x.2 ≠ [] → EntryFits x

/-- The entries are read to the end. -/
def InterfacesRead (env : Env) (ifconfigFile : List Byte) : Prop :=
  ∃ ie, ComesTo (interfaceStep env) (none, ifconfigFile) (ie, [])

/-- The routes that are come to fit. -/
def RoutesFit (env : Env) (routeFile : List Byte) : Prop :=
  ∀ str, ComesTo (routeStep env) (skipBlanks (routeFile.drop routeStartToken.length)) str → str ≠ [] →
    ColumnsFit (routeColumns env) str

/-- A file that can be read. -/
structure Readable (env : Env) (content : List Byte) : Prop where
  short : (content.takeWhile (· != eof)).length < maxFilesize
  sections : ∀ file, readFile content = .ok file → ∀ s, ComesTo scanStep ⟨true, file, none, none⟩ s →
    ¬ s.AtEnd → SectionsFit s
  interfaces : ∀ file, readFile content = .ok file → ∀ s, ComesTo scanStep ⟨true, file, none, none⟩ s →
    s.AtEnd → ∀ array ∈ s.ifconfigFile, InterfacesFit env (stringOf array)
  routes : ∀ file, readFile content = .ok file → ∀ s, ComesTo scanStep ⟨true, file, none, none⟩ s →
    s.AtEnd → (∀ array ∈ s.ifconfigFile, InterfacesRead env (stringOf array)) →
    ∀ array ∈ s.routeFile, RoutesFit env (stringOf array)

/-- The parser ends, without an error or with a simulation error, and accesses the arrays only within their
bounds and before the terminators. -/
def ReadsSafely (env : Env) (content : List Byte) : Prop :=
  Outcome (readRoutingTableFromFile env content) (fun _ ↦ True) (· = .runtimeError)

/-! ## Words -/

section Words

variable {str : List Byte}

theorem outcome_strcpyword_iff (str : List Byte) : ∀ {room : ℕ}
    {Q : List Byte × List Byte → Prop}, Outcome (strcpyword room str) Q (· = .runtimeError) ↔
      (afterWord str ≠ [] ∧ (wordOf str).length < room) ∧ Q (wordOf str, afterWord str) := by
  induction str with
  | nil =>
    intro room Q
    cases room with
    | zero => simp [strcpyword, afterWord, wordOf]
    | succ room => simp [strcpyword, afterWord, wordOf]
  | cons b str ih =>
    intro room Q
    cases room with
    | zero => simp [strcpyword]
    | succ room =>
      rw [strcpyword]
      cases hspace : isspace b with
      | true => simp [wordOf, afterWord, hspace]
      | false =>
        rw [if_neg Bool.false_ne_true, outcome_bind_iff, ih]
        simp [wordOf, afterWord, hspace]

theorem outcome_parseEntry_iff {Q : List Byte × List Byte → Prop} (token : List Byte) :
    Outcome (parseEntry token str) Q (· = .runtimeError) ↔
      HasWord (skipBlanks (str.drop token.length)) ∧
        Q (wordOf (skipBlanks (str.drop token.length)),
          skipBlanks (afterWord (skipBlanks (str.drop token.length)))) := by
  rw [parseEntry, outcome_bind_iff, outcome_strcpyword_iff]
  rfl

theorem length_afterWord_le (str : List Byte) : (afterWord str).length ≤ str.length :=
  List.IsSuffix.length_le (List.dropWhile_suffix _)

theorem length_skipBlanks_le (str : List Byte) : (skipBlanks str).length ≤ str.length :=
  List.IsSuffix.length_le (List.dropWhile_suffix _)

end Words

/-! ## Interfaces -/

section Interfaces

variable {env : Env}

theorem outcome_interfaceEntry_iff {ie : Option ℕ} {token str : List Byte} {entry : Entry} :
    Outcome (interfaceEntry env ie token entry str) (fun _ ↦ True) (· = .runtimeError) ↔
      (entry.usesInterface = true → ie ≠ none) ∧
        (entry ≠ .flag → HasWord (skipBlanks (str.drop token.length))) := by
  rw [interfaceEntry, outcome_ite_iff, outcome_ite_iff, outcome_bind_iff, outcome_parseEntry_iff]
  constructor
  · rintro ⟨huses, hrest⟩
    have hie : entry.usesInterface = true → ie ≠ none := by
      intro hu hn
      cases huses ⟨hu, hn⟩
    refine ⟨hie, fun hflag ↦ ?_⟩
    exact ((hrest fun h ↦ hie h.1 h.2).2 hflag).1
  · rintro ⟨hie, hword⟩
    refine ⟨fun h ↦ absurd h.2 (hie h.1), fun _ ↦ ⟨fun _ ↦ trivial, fun hflag ↦ ⟨hword hflag, ?_⟩⟩⟩
    dsimp only
    cases entry.result env ie (wordOf (skipBlanks (str.drop token.length))) with
    | none => exact rfl
    | some ie => trivial

theorem outcome_interfaceStep_iff {Q : Prop} {x : Option ℕ × List Byte} :
    Outcome (interfaceStep env x) (fun r ↦ ∀ u, r = .inr u → Q) (· = .runtimeError) ↔
      (x.2 = [] → Q) ∧ (x.2 ≠ [] → EntryFits x) := by
  obtain ⟨ie, str⟩ := x
  cases str with
  | nil => simp [interfaceStep]
  | cons b tail =>
    rw [interfaceStep, EntryFits]
    dsimp only
    cases hfind : findEntry (b :: tail) with
    | none => simp
    | some e =>
      obtain ⟨token, entry⟩ := e
      dsimp only
      rw [outcome_bind_iff]
      have htrue : Outcome (interfaceEntry env ie token entry (b :: tail))
          (fun next ↦ Outcome (.ok (.inl next) : Except Fault ((Option ℕ × List Byte) ⊕ Unit))
            (fun r ↦ ∀ u, r = .inr u → Q) (· = .runtimeError)) (· = .runtimeError) ↔
          Outcome (interfaceEntry env ie token entry (b :: tail)) (fun _ ↦ True) (· = .runtimeError) :=
        outcome_congr fun a ↦ by simp
      rw [htrue, outcome_interfaceEntry_iff]
      simp

end Interfaces

/-! ## Routes -/

section Routes

variable {env : Env}

theorem outcome_parseColumns_iff (columns : List (List Byte → Bool)) : ∀ {str : List Byte},
    Outcome (parseColumns columns str) (fun _ ↦ True) (· = .runtimeError) ↔ ColumnsFit columns str := by
  induction columns with
  | nil => exact iff_of_true trivial trivial
  | cons accepts columns ih =>
    intro str
    rw [parseColumns, outcome_bind_iff, outcome_strcpyword_iff, ColumnsFit]
    apply and_congr Iff.rfl
    dsimp only
    rw [outcome_ite_iff, outcome_bind_iff, ← ih]
    constructor
    · intro h haccepts
      exact h.1 haccepts
    · intro h
      exact ⟨h, fun _ ↦ rfl⟩

theorem outcome_routeStep_iff {str : List Byte} :
    Outcome (routeStep env str) (fun r ↦ ∀ u, r = .inr u → True) (· = .runtimeError) ↔
      (str ≠ [] → ColumnsFit (routeColumns env) str) := by
  rw [routeStep, outcome_ite_iff, outcome_bind_iff, ← outcome_parseColumns_iff]
  have hrest : Outcome (parseColumns (routeColumns env) str)
      (fun x ↦ Outcome (if env.addRoute x.1 then .ok (.inl x.2) else .error .runtimeError :
        Except Fault (List Byte ⊕ Unit)) (fun r ↦ ∀ u, r = .inr u → True) (· = .runtimeError))
        (· = .runtimeError) ↔
      Outcome (parseColumns (routeColumns env) str) (fun _ ↦ True) (· = .runtimeError) := by
    apply outcome_congr
    intro x
    rw [outcome_ite_iff]
    exact iff_of_true ⟨fun _ _ _ ↦ trivial, fun _ ↦ rfl⟩ trivial
  constructor
  · intro h hne
    exact hrest.mp (h.2 hne)
  · intro h
    exact ⟨fun _ _ _ ↦ trivial, fun hne ↦ hrest.mpr (h hne)⟩

end Routes

/-! ## The loops over entries and routes -/

section Loops

variable {env : Env}

theorem strcpyword_eq_ok (str : List Byte) : ∀ {room : ℕ} {x : List Byte × List Byte},
    strcpyword room str = .ok x → x = (wordOf str, afterWord str) := by
  intro room x h
  have hall := (@outcome_strcpyword_iff str room fun y ↦ y = (wordOf str, afterWord str)).mpr
  have hfits := (@outcome_strcpyword_iff str room fun _ ↦ True).mp (by rw [h]; trivial)
  exact (hall ⟨hfits.1, rfl⟩).of_eq_ok h

theorem findEntry_token_ne_nil {str token : List Byte} {entry : Entry}
    (h : findEntry str = some (token, entry)) : token ≠ [] := by
  have hall : ∀ e ∈ entries, e.1 ≠ [] := by decide
  exact hall _ (List.mem_of_find?_eq_some h)

theorem interfaceEntry_length {ie : Option ℕ} {token str : List Byte} {entry : Entry}
    {next : Option ℕ × List Byte} (h : interfaceEntry env ie token entry str = .ok next) :
    next.2.length ≤ str.length - token.length := by
  rw [interfaceEntry] at h
  split_ifs at h with hie hflag
  · cases h
    rw [← List.length_drop]
    exact length_skipBlanks_le _
  · obtain ⟨x, hentry, h⟩ := bind_ok_iff.mp h
    obtain ⟨y, hword, hentry⟩ := bind_ok_iff.mp hentry
    cases hentry
    have hy := strcpyword_eq_ok _ hword
    have hrest : next.2 = skipBlanks y.2 := by
      dsimp only at h
      split at h
      · cases h
      · cases h
        rfl
    rw [hrest, hy, ← List.length_drop]
    exact ((length_skipBlanks_le _).trans (length_afterWord_le _)).trans (length_skipBlanks_le _)

theorem interfaceStep_length {x x' : Option ℕ × List Byte} (h : interfaceStep env x = .ok (.inl x')) :
    x'.2.length < x.2.length := by
  obtain ⟨ie, str⟩ := x
  cases str with
  | nil => cases h
  | cons b tail =>
    rw [interfaceStep] at h
    dsimp only at h
    cases hfind : findEntry (b :: tail) with
    | none =>
      rw [hfind] at h
      cases h
      exact Nat.lt_succ_self _
    | some e =>
      obtain ⟨token, entry⟩ := e
      rw [hfind] at h
      obtain ⟨next, hnext, h⟩ := bind_ok_iff.mp h
      cases h
      have hle := interfaceEntry_length hnext
      have hpos := List.length_pos_of_ne_nil (findEntry_token_ne_nil hfind)
      rw [List.length_cons] at hle ⊢
      omega

theorem outcome_parseInterfaces_iff {Q : Prop} {ifconfigFile : List Byte} :
    Outcome (parseInterfaces env ifconfigFile) (fun _ ↦ Q) (· = .runtimeError) ↔
      InterfacesFit env ifconfigFile ∧ (InterfacesRead env ifconfigFile → Q) := by
  refine (outcome_loop_iff (s := (none, ifconfigFile)) (fun _ ↦ True) (fun x ↦ x.2.length)
    (fun _ _ _ h ↦ ⟨trivial, interfaceStep_length h⟩) _ trivial (Nat.lt_succ_self _)).trans ?_
  simp only [outcome_interfaceStep_iff]
  constructor
  · intro h
    refine ⟨fun x hx ↦ (h x hx).2, fun hread ↦ ?_⟩
    obtain ⟨ie, hie⟩ := hread
    exact (h _ hie).1 rfl
  · rintro ⟨hfit, hQ⟩ x hx
    refine ⟨fun hend ↦ hQ ⟨x.1, ?_⟩, hfit x hx⟩
    rw [← hend]
    exact hx

theorem length_skipBlanks_afterWord {str : List Byte} (h : str ≠ []) :
    (skipBlanks (afterWord str)).length < str.length := by
  cases str with
  | nil => exact absurd rfl h
  | cons b tail =>
    rw [List.length_cons, Nat.lt_succ_iff]
    cases hspace : isspace b with
    | true =>
      have hafter : afterWord (b :: tail) = b :: tail := List.dropWhile_cons_of_neg (by simp [hspace])
      have hskip : skipBlanks (b :: tail) = skipBlanks tail := List.dropWhile_cons_of_pos hspace
      rw [hafter, hskip]
      exact length_skipBlanks_le tail
    | false =>
      have hafter : afterWord (b :: tail) = afterWord tail := List.dropWhile_cons_of_pos (by simp [hspace])
      rw [hafter]
      exact (length_skipBlanks_le _).trans (length_afterWord_le tail)

theorem parseColumns_length (columns : List (List Byte → Bool)) : ∀ {str : List Byte}
    {x : List (List Byte) × List Byte}, parseColumns columns str = .ok x →
      x.2.length ≤ str.length ∧ (columns ≠ [] → str ≠ [] → x.2.length < str.length) := by
  induction columns with
  | nil =>
    intro str x h
    cases h
    exact ⟨le_rfl, fun hne ↦ absurd rfl hne⟩
  | cons accepts columns ih =>
    intro str x h
    rw [parseColumns] at h
    obtain ⟨y, hword, h⟩ := bind_ok_iff.mp h
    rw [strcpyword_eq_ok str hword] at h
    dsimp only at h
    split_ifs at h
    obtain ⟨z, hcolumns, h⟩ := bind_ok_iff.mp h
    cases h
    have hrest := (ih hcolumns).1
    refine ⟨hrest.trans ((length_skipBlanks_le _).trans (length_afterWord_le str)), fun _ hne ↦ ?_⟩
    exact hrest.trans_lt (length_skipBlanks_afterWord hne)

theorem routeStep_length {str str' : List Byte} (h : routeStep env str = .ok (.inl str')) :
    str'.length < str.length := by
  rw [routeStep] at h
  split_ifs at h with hnil
  · cases h
  · obtain ⟨x, hcolumns, h⟩ := bind_ok_iff.mp h
    dsimp only at h
    split_ifs at h
    cases h
    exact (parseColumns_length _ hcolumns).2 (List.cons_ne_nil _ _) hnil

theorem outcome_parseRouting_iff {routeFile : List Byte} (h : routeStartToken <+: routeFile) :
    Outcome (parseRouting env routeFile) (fun _ ↦ True) (· = .runtimeError) ↔ RoutesFit env routeFile := by
  rw [parseRouting, if_neg (not_lt.mpr h.length_le), RoutesFit]
  dsimp only
  rw [outcome_loop_iff (fun _ ↦ True) List.length (fun _ _ _ h ↦ ⟨trivial, routeStep_length h⟩) _ trivial
    (Nat.lt_succ_self _)]
  simp only [outcome_routeStep_iff]

end Loops

/-! ## Sections -/

section Sections

variable {file rest line token : List Byte}

/-- The array ends with a byte that is in no token. -/
def Padded (file : List Byte) : Prop := ∀ b ∈ file.getLast?, b = 0 ∨ b = eof

theorem Padded.suffix (h : Padded file) (hrest : rest <:+ file) : Padded rest := by
  obtain ⟨front, rfl⟩ := hrest
  cases rest with
  | nil => exact nofun
  | cons b rest =>
    intro c hc
    apply h
    rwa [List.getLast?_append_of_ne_nil _ (List.cons_ne_nil _ _)]

theorem streq_eq (htoken : ∀ t ∈ token, t ≠ 0 ∧ t ≠ eof) : ∀ {file : List Byte}, Padded file → file ≠ [] →
    streq file token = .ok (token.isPrefixOf file) := by
  induction token with
  | nil => intro file _ _; cases file <;> rfl
  | cons t token ih =>
    intro file hpadded hne
    obtain ⟨ht, htoken'⟩ := List.forall_mem_cons.mp htoken
    cases file with
    | nil => exact absurd rfl hne
    | cons b file =>
      rw [streq, List.isPrefixOf]
      by_cases hbt : b = t
      · have hfile : file ≠ [] := by
          rintro rfl
          rcases hpadded b rfl with hzero | heof
          · exact ht.1 (hbt ▸ hzero)
          · exact ht.2 (hbt ▸ heof)
        rw [if_pos hbt, ih htoken' (hpadded.suffix (List.suffix_cons b file)) hfile, hbt]
        simp
      · rw [if_neg hbt]
        simp [show (t == b) = false from beq_eq_false_iff_ne.mpr (Ne.symm hbt)]

theorem line_spec (file : List Byte) :
    (∃ line rest, skipLine file = .ok rest ∧ copyLine file = .ok (line, rest) ∧ file = line ++ rest ∧
      line ≠ [] ∧ ∀ token, token <+: file → newline ∉ token → token <+: line) ∨
    (skipLine file = .error .outOfBounds ∧ copyLine file = .error .outOfBounds) := by
  induction file with
  | nil => exact .inr ⟨rfl, rfl⟩
  | cons b file ih =>
    rw [skipLine, copyLine]
    by_cases hb : b = newline
    · left
      refine ⟨[b], file, if_pos hb, if_pos hb, rfl, List.cons_ne_nil _ _, fun token htoken hnot ↦ ?_⟩
      cases token with
      | nil => exact List.nil_prefix
      | cons t token =>
        rw [(List.cons_prefix_cons.mp htoken).1, hb] at hnot
        exact absurd List.mem_cons_self hnot
    · rw [if_neg hb, if_neg hb]
      rcases ih with ⟨line, rest, hskip, hcopy, rfl, -, htokens⟩ | ⟨hskip, hcopy⟩
      · left
        refine ⟨b :: line, rest, hskip, ?_, rfl, List.cons_ne_nil _ _, fun token htoken hnot ↦ ?_⟩
        · rw [hcopy]
          rfl
        · cases token with
          | nil => exact List.nil_prefix
          | cons t token =>
            obtain ⟨rfl, htail⟩ := List.cons_prefix_cons.mp htoken
            have hnot' : newline ∉ token := fun h ↦ hnot (List.mem_cons_of_mem _ h)
            exact List.cons_prefix_cons.mpr ⟨rfl, htokens token htail hnot'⟩
      · right
        rw [hcopy]
        exact ⟨hskip, rfl⟩

/-- The bytes of the tokens of a section tell them from each other, from lines that are skipped and from the
end of the array. -/
structure SectionTokens (starttoken endtoken : List Byte) : Prop where
  start_bytes : ∀ t ∈ starttoken, t ≠ 0 ∧ t ≠ eof
  end_bytes : ∀ t ∈ endtoken, t ≠ 0 ∧ t ≠ eof
  start_line : newline ∉ starttoken
  start_ne : starttoken ≠ []
  end_ne : endtoken ≠ []
  start_head : ∀ t ∈ starttoken.head?, isalnum t = true
  end_head : ∀ t ∈ endtoken.head?, isalnum t = true
  apart : ¬ starttoken <+: endtoken ∧ ¬ endtoken <+: starttoken

variable {starttoken endtoken : List Byte}

theorem ifconfigTokens : SectionTokens ifconfigStartToken ifconfigEndToken := by
  constructor <;> decide

theorem routeTokens : SectionTokens routeStartToken routeEndToken := by
  constructor <;> decide

theorem SectionTokens.not_end (h : SectionTokens starttoken endtoken) (hstart : starttoken <+: file) :
    ¬ endtoken <+: file := by
  intro hend
  rcases List.prefix_or_prefix_of_prefix hstart hend with hfirst | hsecond
  · exact h.apart.1 hfirst
  · exact h.apart.2 hsecond

theorem head_of_token {b : Byte} (hne : token ≠ []) (h : token <+: b :: file) : b ∈ token.head? := by
  cases token with
  | nil => exact absurd rfl hne
  | cons t token =>
    rw [(List.cons_prefix_cons.mp h).1]
    rfl

theorem closed_iff_of_skipLine (hskip : skipLine file = .ok rest) (hnot : ¬ endtoken <+: file) :
    Closed endtoken file ↔ Closed endtoken rest := by
  constructor
  · intro h
    cases h with
    | here hend => exact absurd hend hnot
    | line hskip' hrest =>
      rw [hskip] at hskip'
      cases hskip'
      exact hrest
  · exact .line hskip

theorem not_closed_of_skipLine {e : Fault} (hskip : skipLine file = .error e)
    (hnot : ¬ endtoken <+: file) : ¬ Closed endtoken file := by
  intro h
  cases h with
  | here hend => exact hnot hend
  | line hskip' _ =>
    rw [hskip] at hskip'
    cases hskip'

/-- A section is copied up to its end token, with its first line, and to the end of the array if there is
none. -/
theorem filter_spec (h : SectionTokens starttoken endtoken) (fuel : ℕ) : ∀ {file acc : List Byte},
    file.length < fuel → Padded file → acc.length + file.length ≤ maxFilesize →
    (Closed endtoken file → ∃ filtered rest,
      loop .endlessLoop (filterStep endtoken) fuel (acc, file) = .ok (filtered, rest) ∧ rest <:+ file ∧
      endtoken <+: rest ∧ acc <+: filtered ∧ (starttoken <+: file → acc ++ starttoken <+: filtered)) ∧
    (¬ Closed endtoken file → ∃ e,
      loop .endlessLoop (filterStep endtoken) fuel (acc, file) = .error e ∧ e ≠ .runtimeError) := by
  induction fuel with
  | zero => exact fun hfuel ↦ absurd hfuel (Nat.not_lt_zero _)
  | succ fuel ih =>
    intro file acc hfuel hpadded hroom
    rw [loop]
    cases file with
    | nil =>
      refine ⟨fun hclosed ↦ absurd hclosed ?_, fun _ ↦ ⟨.outOfBounds, rfl, by decide⟩⟩
      exact not_closed_of_skipLine rfl fun hend ↦ h.end_ne (List.prefix_nil.mp hend)
    | cons b tail =>
      rw [filterStep]
      dsimp only
      cases hcomment : !isalnum b && !isspace b with
      | true =>
        have halnum : ∀ {token : List Byte}, (∀ t ∈ token.head?, isalnum t = true) → token ≠ [] →
            ¬ token <+: b :: tail := by
          intro token hhead hne hfront
          have hb := hhead b (head_of_token hne hfront)
          simp [hb] at hcomment
        have hnot := halnum h.end_head h.end_ne
        rw [if_pos rfl]
        rcases line_spec (b :: tail) with ⟨line, rest, hskip, -, hfile, hline, -⟩ | ⟨hskip, -⟩
        · have hlength := congrArg List.length hfile
          have hpos := List.length_pos_of_ne_nil hline
          rw [List.length_append] at hlength
          have hsuffix : rest <:+ b :: tail := ⟨line, hfile.symm⟩
          rw [hskip, ok_bind, closed_iff_of_skipLine hskip hnot]
          obtain ⟨hok, herror⟩ := ih (by omega : rest.length < fuel) (hpadded.suffix hsuffix)
            (by omega : acc.length + rest.length ≤ maxFilesize)
          refine ⟨fun hclosed ↦ ?_, herror⟩
          obtain ⟨filtered, rest', hrun, hrest', hend, hacc, -⟩ := hok hclosed
          exact ⟨filtered, rest', hrun, hrest'.trans hsuffix, hend, hacc,
            fun hstart ↦ absurd hstart (halnum h.start_head h.start_ne)⟩
        · rw [hskip]
          exact ⟨fun hclosed ↦ absurd hclosed (not_closed_of_skipLine hskip hnot), fun _ ↦ ⟨_, rfl, by decide⟩⟩
      | false =>
        rw [if_neg Bool.false_ne_true, streq_eq h.end_bytes hpadded (List.cons_ne_nil _ _), ok_bind]
        by_cases hend : endtoken <+: b :: tail
        · rw [ List.isPrefixOf_iff_prefix.mpr hend, if_pos rfl,
            if_pos (by rw [List.length_cons] at hroom; omega : acc.length < maxFilesize)]
          refine ⟨fun _ ↦ ⟨acc, b :: tail, rfl, List.suffix_rfl, hend, List.prefix_rfl, fun hstart ↦ ?_⟩,
            fun hopen ↦ absurd (.here hend) hopen⟩
          exact absurd hend (h.not_end hstart)
        · rw [if_neg (by rwa [ List.isPrefixOf_iff_prefix])]
          rcases line_spec (b :: tail) with ⟨line, rest, hskip, hcopy, hfile, hline, htokens⟩ | ⟨hskip, hcopy⟩
          · have hlength := congrArg List.length hfile
            have hpos := List.length_pos_of_ne_nil hline
            rw [List.length_append] at hlength
            have hsuffix : rest <:+ b :: tail := ⟨line, hfile.symm⟩
            have hacc' : (acc ++ line).length + rest.length ≤ maxFilesize := by
              rw [List.length_append]
              omega
            rw [hcopy, ok_bind, closed_iff_of_skipLine hskip hend]
            dsimp only
            rw [if_pos (by omega : acc.length + line.length ≤ maxFilesize)]
            obtain ⟨hok, herror⟩ := ih (by omega : rest.length < fuel) (hpadded.suffix hsuffix) hacc'
            refine ⟨fun hclosed ↦ ?_, herror⟩
            obtain ⟨filtered, rest', hrun, hrest', hend', hacc, -⟩ := hok hclosed
            refine ⟨filtered, rest', hrun, hrest'.trans hsuffix, hend', (List.prefix_append _ _).trans hacc,
              fun hstart ↦ ?_⟩
            exact ((List.prefix_append_right_inj acc).mpr (htokens _ hstart h.start_line)).trans hacc
          · rw [hcopy]
            exact ⟨fun hclosed ↦ absurd hclosed (not_closed_of_skipLine hskip hend), fun _ ↦ ⟨_, rfl, by decide⟩⟩

theorem copySection_spec (h : SectionTokens starttoken endtoken) (hpadded : Padded file) (hne : file ≠ [])
    (hroom : file.length ≤ maxFilesize) (old : Option (List Byte)) :
    ((starttoken <+: file → Closed endtoken file) → ∃ y, copySection starttoken endtoken file old = .ok y ∧
      y.1 <:+ file ∧ y.1 ≠ [] ∧ (starttoken <+: file → endtoken <+: y.1) ∧
      (¬ starttoken <+: file → y = (file, old)) ∧ ∀ array ∈ y.2, array ∈ old ∨ starttoken <+: array) ∧
    (¬ (starttoken <+: file → Closed endtoken file) →
      ∃ e, copySection starttoken endtoken file old = .error e ∧ e ≠ .runtimeError) := by
  rw [copySection, streq_eq h.start_bytes hpadded hne, ok_bind]
  by_cases hstart : starttoken <+: file
  · rw [ List.isPrefixOf_iff_prefix.mpr hstart, if_pos rfl, createFilteredFile]
    obtain ⟨hok, herror⟩ := filter_spec h (file.length + 1) (Nat.lt_succ_self _) hpadded
      (by simpa using hroom : ([] : List Byte).length + file.length ≤ maxFilesize)
    refine ⟨fun hfit ↦ ?_, fun hfit ↦ ?_⟩
    · obtain ⟨filtered, rest, hrun, hsuffix, hend, -, hfirst⟩ := hok (hfit hstart)
      rw [hrun, ok_bind]
      refine ⟨_, rfl, hsuffix, ?_, fun _ ↦ hend, fun hnot ↦ absurd hstart hnot, fun array harray ↦ ?_⟩
      · intro hnil
        dsimp only at hnil
        rw [hnil, List.prefix_nil] at hend
        exact h.end_ne hend
      · cases harray
        exact .inr (hfirst hstart)
    · obtain ⟨e, hrun, he⟩ := herror fun hclosed ↦ hfit fun _ ↦ hclosed
      rw [hrun]
      exact ⟨e, rfl, he⟩
  · rw [if_neg (by rwa [ List.isPrefixOf_iff_prefix])]
    refine ⟨fun _ ↦ ?_, fun hfit ↦ absurd (fun hs ↦ absurd hs hstart) hfit⟩
    exact ⟨_, rfl, List.suffix_rfl, hne, fun hs ↦ absurd hs hstart, fun _ ↦ rfl, fun array harray ↦ .inl harray⟩

/-- What holds during the loop over the file. -/
structure ScanInv (s : Scan) : Prop where
  padded : Padded s.file
  room : s.file.length ≤ maxFilesize
  route : ∀ array ∈ s.routeFile, routeStartToken <+: array

theorem not_routeStart_of_ifconfig {token : List Byte}
    (h : token = ifconfigStartToken ∨ token = ifconfigEndToken)
    (hfront : token <+: file) : ¬ routeStartToken <+: file := by
  intro hroute
  rcases List.prefix_or_prefix_of_prefix hfront hroute with hfirst | hsecond
  · rcases h with rfl | rfl
    · exact absurd hfirst (by decide)
    · exact absurd hfirst (by decide)
  · rcases h with rfl | rfl
    · exact absurd hsecond (by decide)
    · exact absurd hsecond (by decide)

theorem ScanInv.copySections {s : Scan} (h : ScanInv s) (hne : s.file ≠ []) :
    (SectionsFit s → ∃ s', copySections s = .ok s' ∧ s'.file <:+ s.file ∧ s'.file ≠ [] ∧
      ∀ array ∈ s'.routeFile, routeStartToken <+: array) ∧
    (¬ SectionsFit s → ∃ e, copySections s = .error e ∧ e ≠ .runtimeError) := by
  rw [RoutingTableParser.copySections, SectionsFit]
  cases s.atLineStart with
  | false =>
    refine ⟨fun _ ↦ ⟨s, rfl, List.suffix_rfl, hne, h.route⟩, fun hnot ↦ absurd ?_ hnot⟩
    exact fun hfalse ↦ by cases hfalse
  | true =>
    rw [if_pos rfl]
    obtain ⟨hok, herror⟩ := copySection_spec ifconfigTokens h.padded hne h.room s.ifconfigFile
    by_cases hfit : ifconfigStartToken <+: s.file → Closed ifconfigEndToken s.file
    · obtain ⟨y, hrun, hsuffix, hy, hend, hsame, -⟩ := hok hfit
      rw [hrun, ok_bind]
      dsimp only
      have hfit' : (routeStartToken <+: y.1 → Closed routeEndToken y.1) ↔
          (routeStartToken <+: s.file → Closed routeEndToken s.file) := by
        by_cases hstart : ifconfigStartToken <+: s.file
        · refine iff_of_true (fun hroute ↦ ?_) fun hroute ↦ ?_
          · exact absurd hroute (not_routeStart_of_ifconfig (.inr rfl) (hend hstart))
          · exact absurd hroute (not_routeStart_of_ifconfig (.inl rfl) hstart)
        · rw [hsame hstart]
      obtain ⟨hok', herror'⟩ := copySection_spec routeTokens (h.padded.suffix hsuffix) hy
        (hsuffix.length_le.trans h.room) s.routeFile
      refine ⟨fun hsections ↦ ?_, fun hnot ↦ ?_⟩
      · obtain ⟨z, hrun', hsuffix', hz, -, -, harrays⟩ := hok' (hfit'.mpr (hsections rfl).2)
        rw [hrun', ok_bind]
        refine ⟨_, rfl, hsuffix'.trans hsuffix, hz, fun array harray ↦ ?_⟩
        rcases harrays array harray with hold | hnew
        · exact h.route array hold
        · exact hnew
      · obtain ⟨e, hrun', he⟩ := herror' fun hroute ↦ hnot fun _ ↦ ⟨hfit, hfit'.mp hroute⟩
        rw [hrun']
        exact ⟨e, rfl, he⟩
    · refine ⟨fun hsections ↦ absurd (hsections rfl).1 hfit, fun _ ↦ ?_⟩
      obtain ⟨e, hrun, he⟩ := herror hfit
      rw [hrun]
      exact ⟨e, rfl, he⟩

theorem scanStep_of_atEnd {s : Scan} (h : s.AtEnd) : scanStep s = .ok (.inr s) := by
  rw [scanStep]
  cases hfile : s.file with
  | nil => rfl
  | cons b file =>
    rw [Scan.AtEnd, hfile] at h
    rcases h with hnil | heof
    · cases hnil
    · exact if_pos (Option.some.inj heof)

theorem ScanInv.step {s : Scan} (h : ScanInv s) (hend : ¬ s.AtEnd) :
    (SectionsFit s → ∃ s', scanStep s = .ok (.inl s') ∧ ScanInv s' ∧ s'.file.length < s.file.length) ∧
    (¬ SectionsFit s → ∃ e, scanStep s = .error e ∧ e ≠ .runtimeError) := by
  rw [Scan.AtEnd, not_or] at hend
  obtain ⟨hok, herror⟩ := h.copySections hend.1
  rw [scanStep]
  cases hfile : s.file with
  | nil => exact absurd hfile hend.1
  | cons b file =>
    have heof : b ≠ eof := by
      intro heq
      rw [hfile, heq] at hend
      exact hend.2 rfl
    dsimp only
    rw [if_neg heof]
    refine ⟨fun hfit ↦ ?_, fun hfit ↦ ?_⟩
    · obtain ⟨s', hrun, hsuffix, hne, hroute⟩ := hok hfit
      rw [hrun, ok_bind]
      cases hfile' : s'.file with
      | nil => exact absurd hfile' hne
      | cons b' file' =>
        rw [hfile'] at hsuffix
        have hsuffix' := (List.suffix_cons b' file').trans hsuffix
        have hle := hsuffix.length_le
        rw [List.length_cons, hfile] at hle
        refine ⟨_, rfl, ⟨h.padded.suffix hsuffix', hsuffix'.length_le.trans h.room, hroute⟩, ?_⟩
        exact hle
    · obtain ⟨e, hrun, he⟩ := herror hfit
      rw [hrun]
      exact ⟨e, rfl, he⟩

theorem ScanInv.next {s s' : Scan} (h : ScanInv s) (hnext : scanStep s = .ok (.inl s')) :
    ScanInv s' ∧ s'.file.length < s.file.length := by
  by_cases hend : s.AtEnd
  · rw [scanStep_of_atEnd hend] at hnext
    cases hnext
  · obtain ⟨hok, herror⟩ := h.step hend
    by_cases hfit : SectionsFit s
    · obtain ⟨t, hrun, ht⟩ := hok hfit
      rw [hrun] at hnext
      cases hnext
      exact ht
    · obtain ⟨e, hrun, -⟩ := herror hfit
      rw [hrun] at hnext
      cases hnext

theorem outcome_scanStep_iff {s : Scan} (h : ScanInv s) {Q : Scan → Prop} :
    Outcome (scanStep s) (fun r ↦ ∀ a, r = .inr a → Q a) (· = .runtimeError) ↔
      (s.AtEnd → Q s) ∧ (¬ s.AtEnd → SectionsFit s) := by
  by_cases hend : s.AtEnd
  · rw [scanStep_of_atEnd hend]
    constructor
    · intro hQ
      exact ⟨fun _ ↦ hQ s rfl, fun hnot ↦ absurd hend hnot⟩
    · rintro ⟨hQ, -⟩ a ha
      cases ha
      exact hQ hend
  · obtain ⟨hok, herror⟩ := h.step hend
    by_cases hfit : SectionsFit s
    · obtain ⟨s', hrun, -, -⟩ := hok hfit
      rw [hrun]
      refine iff_of_true (fun a ha ↦ ?_) ⟨fun h ↦ absurd h hend, fun _ ↦ hfit⟩
      cases ha
    · obtain ⟨e, hrun, he⟩ := herror hfit
      rw [hrun]
      exact iff_of_false he fun h ↦ hfit (h.2 hend)

end Sections

/-! ## The whole file -/

section File

variable {env : Env} {content file : List Byte}

theorem readFile_eq (content : List Byte) :
    readFile content = if (content.takeWhile (· != eof)).length < maxFilesize then
      .ok (content.takeWhile (· != eof) ++
        eof :: List.replicate (maxFilesize - 1 - (content.takeWhile (· != eof)).length) 0)
      else .error .outOfBounds := rfl

theorem ScanInv.start (h : readFile content = .ok file) : ScanInv ⟨true, file, none, none⟩ := by
  rw [readFile_eq] at h
  split_ifs at h with hshort
  cases h
  refine ⟨?_, ?_, nofun⟩
  · intro b hb
    dsimp only at hb
    rw [List.getLast?_append_of_ne_nil _ (List.cons_ne_nil _ _), List.getLast?_cons] at hb
    cases hlast : (List.replicate (maxFilesize - 1 - (content.takeWhile (· != eof)).length) (0 : Byte)).getLast? with
    | none =>
      rw [hlast] at hb
      cases hb
      exact .inr rfl
    | some c =>
      rw [hlast] at hb
      cases hb
      exact .inl (List.eq_of_mem_replicate (List.mem_of_getLast? hlast))
  · dsimp only
    rw [List.length_append, List.length_cons, List.length_replicate]
    omega

theorem routeStart_stringOf {array : List Byte} (h : routeStartToken <+: array) :
    routeStartToken <+: stringOf array := by
  obtain ⟨rest, rfl⟩ := h
  rw [stringOf, List.takeWhile_append_of_pos (by decide)]
  exact List.prefix_append _ _

theorem ScanInv.outcome_parse_iff {s : Scan} (h : ScanInv s) :
    Outcome (do
      s.ifconfigFile.forM fun ifconfigFile ↦ parseInterfaces env (stringOf ifconfigFile)
      s.routeFile.forM fun routeFile ↦ parseRouting env (stringOf routeFile))
      (fun _ ↦ True) (· = .runtimeError) ↔
      (∀ array ∈ s.ifconfigFile, InterfacesFit env (stringOf array)) ∧
        ((∀ array ∈ s.ifconfigFile, InterfacesRead env (stringOf array)) →
          ∀ array ∈ s.routeFile, RoutesFit env (stringOf array)) := by
  have hroutes : Outcome (s.routeFile.forM fun routeFile ↦ parseRouting env (stringOf routeFile))
      (fun _ ↦ True) (· = .runtimeError) ↔ ∀ array ∈ s.routeFile, RoutesFit env (stringOf array) := by
    cases hroute : s.routeFile with
    | none => exact iff_of_true trivial nofun
    | some array =>
      have hfront := routeStart_stringOf (h.route array hroute)
      refine (outcome_parseRouting_iff hfront).trans ⟨fun hfit array' harray' ↦ ?_, fun hall ↦ hall array rfl⟩
      cases harray'
      exact hfit
  rw [outcome_bind_iff, hroutes]
  cases s.ifconfigFile with
  | none =>
    constructor
    · exact fun hroute ↦ ⟨nofun, fun _ ↦ hroute⟩
    · exact fun hboth ↦ hboth.2 nofun
  | some array =>
    refine outcome_parseInterfaces_iff.trans (and_congr ?_ ?_)
    · simp
    · simp

theorem not_readsSafely_of_long (h : ¬ (content.takeWhile (· != eof)).length < maxFilesize) :
    ¬ ReadsSafely env content := by
  have hfile : readFile content = .error .outOfBounds := if_neg h
  rw [ReadsSafely, readRoutingTableFromFile, hfile]
  exact nofun

/-- The parser reads exactly the readable files without an access outside its arrays. -/
theorem readsSafely_iff_readable (env : Env) (content : List Byte) :
    ReadsSafely env content ↔ Readable env content := by
  by_cases hshort : (content.takeWhile (· != eof)).length < maxFilesize
  · rw [ReadsSafely, readRoutingTableFromFile, outcome_bind_iff]
    obtain ⟨file, hfile⟩ : ∃ file, readFile content = .ok file := ⟨_, if_pos hshort⟩
    have hstart := ScanInv.start hfile
    have hinv : ∀ s, ComesTo scanStep ⟨true, file, none, none⟩ s → ScanInv s := fun s hs ↦
      hs.invariant hstart fun t u ht hnext ↦ (ht.next hnext).1
    rw [hfile]
    refine outcome_bind_iff.trans ((outcome_loop_iff (s := ⟨true, file, none, none⟩) ScanInv
      (fun s ↦ s.file.length) (fun _ _ h ↦ h.next) _ hstart (Nat.lt_succ_self _)).trans ?_)
    constructor
    · intro h
      have hall := fun s hs ↦ (outcome_scanStep_iff (hinv s hs)).mp (h s hs)
      constructor
      · exact hshort
      · intro file' hfile' s hs hend
        rw [hfile] at hfile'
        cases hfile'
        exact (hall s hs).2 hend
      · intro file' hfile' s hs hend
        rw [hfile] at hfile'
        cases hfile'
        exact ((hinv s hs).outcome_parse_iff.mp ((hall s hs).1 hend)).1
      · intro file' hfile' s hs hend
        rw [hfile] at hfile'
        cases hfile'
        exact ((hinv s hs).outcome_parse_iff.mp ((hall s hs).1 hend)).2
    · intro h s hs
      rw [outcome_scanStep_iff (hinv s hs)]
      refine ⟨fun hend ↦ ?_, h.sections file hfile s hs⟩
      apply (hinv s hs).outcome_parse_iff.mpr
      exact ⟨h.interfaces file hfile s hs hend, h.routes file hfile s hs hend⟩
  · exact iff_of_false (not_readsSafely_of_long hshort) fun h ↦ hshort h.short

/-- A file of at least 10000 letters does not fit into the array. -/
theorem not_readsSafely_replicate (env : Env) {n : ℕ} (hn : maxFilesize ≤ n) :
    ¬ ReadsSafely env (List.replicate n 65) := by
  apply not_readsSafely_of_long
  rw [List.takeWhile_replicate, if_pos (by decide), List.length_replicate]
  exact not_lt.mpr hn

theorem not_readsSafely_long : ¬ ∀ (env : Env) (content : List Byte), ReadsSafely env content := by
  intro h
  obtain ⟨n, hn⟩ : ∃ n, maxFilesize ≤ n := ⟨maxFilesize, le_rfl⟩
  exact not_readsSafely_replicate _ hn (h ⟨fun _ ↦ none, fun _ ↦ false, fun _ ↦ 0, fun _ ↦ false⟩ _)

end File

end InetManet.RoutingTableParser
