import InetManet.LDP.Session
import Mathlib.Data.List.Sort

/-!
# Bindings and the LIB table

The entries that the router has installed are those of the labels in its upstream bindings, and each of
them forwards as the FEC's current next hop demands.

This lasts as long as no upstream binding is withdrawn for want of a downstream one or lost with its
peer, where the entry is forgotten, no FEC that is still bound disappears, a request is not repeated
while it is pending, and pending requests are answered by the next hop.
-/

namespace InetManet

open TransitionSystem

namespace LDP

variable {m : ℤ} {fecs fecs' : List Fec} {dirty : Fec → Prop} {s s' : LDP} {t t' : LIBTable}

/-! ## The LIB table -/

namespace LIBTable

def labels (t : LIBTable) : List ℤ := t.lib.map LIBEntry.inLabel

/-- The labels that were allocated after `m`. -/
def ownLabels (t : LIBTable) (m : ℤ) : List ℤ := t.labels.filter fun l ↦ m < l

/-- What is done with packets that carry the label. -/
def out? (t : LIBTable) (label : ℤ) : Option (List LabelOp) :=
  (t.lib.find? fun e ↦ e.inLabel = label).map LIBEntry.outLabel

end LIBTable

theorem map_inLabel_replaceEntry (label : ℤ) (entry : LIBEntry) (hlabel : entry.inLabel = label)
    (es : List LIBEntry) :
    (replaceEntry label entry es).map LIBEntry.inLabel = es.map LIBEntry.inLabel := by
  induction es with
  | nil => rfl
  | cons e es ih =>
    unfold replaceEntry
    split
    · rename_i he
      simp [hlabel, he]
    · simp [ih]

theorem find?_replaceEntry_self (label : ℤ) (entry : LIBEntry) (hlabel : entry.inLabel = label)
    (es : List LIBEntry) (h : label ∈ es.map LIBEntry.inLabel) :
    (replaceEntry label entry es).find? (fun e ↦ e.inLabel = label) = some entry := by
  induction es with
  | nil => cases h
  | cons e es ih =>
    unfold replaceEntry
    split
    · simp [hlabel]
    · rename_i he
      rw [List.find?_cons_of_neg (by simpa using he)]
      apply ih
      simpa [Ne.symm he] using h

theorem find?_replaceEntry_of_ne (label l : ℤ) (entry : LIBEntry) (hlabel : entry.inLabel = label)
    (hne : l ≠ label) (es : List LIBEntry) :
    (replaceEntry label entry es).find? (fun e ↦ e.inLabel = l) =
      es.find? fun e ↦ e.inLabel = l := by
  induction es with
  | nil => rfl
  | cons e es ih =>
    unfold replaceEntry
    split
    · rename_i he
      rw [List.find?_cons_of_neg (by simpa [hlabel] using hne.symm),
        List.find?_cons_of_neg (by simpa [he] using hne.symm)]
    · simp only [List.find?_cons, ih]

theorem map_inLabel_eraseP (label : ℤ) (es : List LIBEntry) :
    (es.eraseP fun e ↦ e.inLabel = label).map LIBEntry.inLabel =
      (es.map LIBEntry.inLabel).erase label := by
  induction es with
  | nil => rfl
  | cons e es ih =>
    by_cases he : e.inLabel = label
    · simp [he]
    · simp [he, ih]

theorem find?_eraseP_of_ne (label l : ℤ) (hne : l ≠ label) (es : List LIBEntry) :
    (es.eraseP fun e ↦ e.inLabel = label).find? (fun e ↦ e.inLabel = l) =
      es.find? fun e ↦ e.inLabel = l := by
  induction es with
  | nil => rfl
  | cons e es ih =>
    by_cases he : e.inLabel = label
    · rw [List.eraseP_cons_of_pos (by simpa using he),
        List.find?_cons_of_neg (by simpa [he] using hne.symm)]
    · rw [List.eraseP_cons_of_neg (by simpa using he)]
      simp only [List.find?_cons, ih]

theorem filter_erase_of_pos {p : ℤ → Bool} {label : ℤ} (h : p label = true) (ls : List ℤ) :
    (ls.erase label).filter p = (ls.filter p).erase label := by
  induction ls with
  | nil => rfl
  | cons l ls ih =>
    by_cases hl : l = label
    · subst hl
      simp [h]
    · rw [List.erase_cons_tail (by simpa using hl), List.filter_cons, List.filter_cons, ih]
      split
      · rw [List.erase_cons_tail (by simpa using hl)]
      · rfl

/-- The entry for the label forwards in a new way, all other ones as before. -/
structure Rewritten (t t' : LIBTable) (label : ℤ) (out : List LabelOp) : Prop where
  labels : t'.labels = t.labels
  maxLabel : t'.maxLabel = t.maxLabel
  self : t'.out? label = some out
  other : ∀ l, l ≠ label → t'.out? l = t.out? l

theorem LIBTable.installLibEntry_existing {label : ℤ} (h : label ∈ t.labels) (hnew : label ≠ -1)
    (inInterface outInterface : String) (out : List LabelOp) (color : ℕ) :
    Outcome (t.installLibEntry label inInterface out outInterface color)
      (fun r ↦ r.1 = label ∧ Rewritten t r.2 label out) fun _ ↦ False := by
  have hany : (t.lib.any fun e ↦ e.inLabel = label) = true := by
    obtain ⟨e, he, rfl⟩ := List.mem_map.mp h
    exact List.any_eq_true.mpr ⟨e, he, by simp⟩
  let item : LIBEntry := ⟨label, inInterface, out, outInterface, color⟩
  simp only [installLibEntry, hnew, hany, if_true, if_false]
  refine ⟨rfl, ?_, rfl, ?_, ?_⟩
  · exact map_inLabel_replaceEntry label item rfl t.lib
  · exact congrArg _ (find?_replaceEntry_self label item rfl t.lib h)
  · intro l hne
    exact congrArg _ (find?_replaceEntry_of_ne label l item rfl hne t.lib)

/-- A new label is allocated. -/
structure Added (t t' : LIBTable) (label : ℤ) (out : List LabelOp) : Prop where
  allocated : label = t.maxLabel + 1
  labels : t'.labels = t.labels ++ [label]
  maxLabel : t'.maxLabel = t.maxLabel + 1
  self : (∀ l ∈ t.labels, l ≤ t.maxLabel) → t'.out? label = some out
  other : ∀ l, l ≠ label → t'.out? l = t.out? l

theorem LIBTable.installLibEntry_new (t : LIBTable) (inInterface outInterface : String)
    (out : List LabelOp) (color : ℕ) :
    Outcome (t.installLibEntry (-1) inInterface out outInterface color)
      (fun r ↦ Added t r.2 r.1 out) fun _ ↦ False := by
  simp only [installLibEntry, if_true]
  refine ⟨rfl, ?_, rfl, ?_, ?_⟩
  · simp [LIBTable.labels]
  · intro hbounded
    have hnone : (t.lib.find? fun e ↦ e.inLabel = t.maxLabel + 1) = none := by
      rw [List.find?_eq_none]
      intro e he heq
      have := hbounded e.inLabel (List.mem_map_of_mem he)
      simp only [decide_eq_true_eq] at heq
      omega
    simp [LIBTable.out?, List.find?_append, hnone]
  · intro l hne
    simp [LIBTable.out?, List.find?_append, Ne.symm hne]

theorem LIBTable.removeLibEntry_spec {label : ℤ} (h : label ∈ t.labels) :
    Outcome (t.removeLibEntry label)
      (fun t' ↦ t'.labels = t.labels.erase label ∧ t'.maxLabel = t.maxLabel ∧
        ∀ l, l ≠ label → t'.out? l = t.out? l) fun _ ↦ False := by
  have hany : (t.lib.any fun e ↦ e.inLabel = label) = true := by
    obtain ⟨e, he, rfl⟩ := List.mem_map.mp h
    exact List.any_eq_true.mpr ⟨e, he, by simp⟩
  simp only [removeLibEntry, hany, if_true]
  refine ⟨map_inLabel_eraseP label t.lib, rfl, ?_⟩
  intro l hne
  simp only [LIBTable.out?]
  rw [find?_eraseP_of_ne label l hne]

/-! ## The invariant -/

def FecBind.key (b : FecBind) : ℕ × IPAddress := (b.fecid, b.peer)

def PendingReq.key (r : PendingReq) : ℕ × IPAddress := (r.fecid, r.peer)

/-- What the entries of the FEC's bindings are to do, if there can be any. -/
def expected (s : LDP) (fec : Fec) : Option (List LabelOp) :=
  if s.findPeerSocket fec.nextHop then
    (findBind s.fecDown fec.fecid fec.nextHop).map fun dit ↦ swapLabel dit.label
  else some popLabel

/-- The FEC has a binding or a pending request. -/
def Used (s : LDP) (fecid : ℕ) : Prop :=
  (∃ b ∈ s.fecUp, b.fecid = fecid) ∨ (∃ b ∈ s.fecDown, b.fecid = fecid) ∨
    ∃ r ∈ s.pending, r.fecid = fecid

/-- The bindings belong to the FECs of the list, and the LIB table agrees with them except for FECs
that are still to be updated. -/
structure Consistent (m : ℤ) (fecs : List Fec) (dirty : Fec → Prop) (s : LDP) : Prop where
  base : 0 ≤ m ∧ m ≤ s.lt.maxLabel
  labels : (s.lt.ownLabels m).Perm (s.fecUp.map FecBind.label)
  nodup : (s.fecUp.map FecBind.label).Nodup
  bounded : ∀ l ∈ s.lt.labels, l ≤ s.lt.maxLabel
  up : (s.fecUp.map FecBind.key ++ s.pending.map PendingReq.key).Nodup
  down : (s.fecDown.map FecBind.key).Nodup
  known : ∀ fecid, s.Used fecid → fecid ∈ fecs.map Fec.fecid
  ids : (fecs.map Fec.fecid).Nodup
  fresh : ∀ f ∈ fecs, f.fecid ≤ s.maxFecid
  forwards : ∀ b ∈ s.fecUp, ∀ f ∈ fecs, f.fecid = b.fecid → ¬ dirty f →
    s.lt.out? b.label = s.expected f
  peers : (s.myPeers.map PeerInfo.peerIP).Nodup

theorem Consistent.label_mem (h : Consistent m fecs dirty s) {b : FecBind} (hb : b ∈ s.fecUp) :
    b.label ∈ s.lt.labels ∧ m < b.label := by
  have hmem : b.label ∈ s.lt.ownLabels m := h.labels.mem_iff.mpr (List.mem_map_of_mem hb)
  simpa [LIBTable.ownLabels] using hmem

theorem Consistent.label_ne (h : Consistent m fecs dirty s) {b : FecBind} (hb : b ∈ s.fecUp) :
    b.label ≠ -1 := by
  have hm := h.base.1
  have hlabel := (h.label_mem hb).2
  omega

theorem LIBTable.out?_isSome {label : ℤ} (h : label ∈ t.labels) : (t.out? label).isSome := by
  obtain ⟨e, he, rfl⟩ := List.mem_map.mp h
  have hfind : (t.lib.find? fun e' ↦ e'.inLabel = e.inLabel).isSome := by
    rw [List.find?_isSome]
    exact ⟨e, he, by simp⟩
  simpa [LIBTable.out?] using hfind

/-- The part of the state that does not change when LIB entries are rewritten. -/
def frame (s : LDP) := (s.fecUp, s.fecDown, s.pending, s.myPeers, s.maxFecid, s.fecList)

/-- The bindings, the pending requests and the peers. -/
def book (s : LDP) := (s.fecUp, s.fecDown, s.pending, s.myPeers)

theorem book_of_frame (h : s'.frame = s.frame) : s'.book = s.book := by
  simp only [frame, Prod.mk.injEq] at h
  simp only [book, h]

theorem expected_of_book (h : s'.book = s.book) (fec : Fec) : s'.expected fec = s.expected fec := by
  simp only [book, Prod.mk.injEq] at h
  obtain ⟨-, hdown, -, hpeers⟩ := h
  unfold expected findPeerSocket findPeer
  rw [hdown, hpeers]

/-! ## Updating a FEC -/

theorem findInterfaceFromPeerAddr_outcome (peerIP : IPAddress) :
    Outcome (s.findInterfaceFromPeerAddr peerIP) (fun _ ↦ True) fun fault ↦ fault ≠ .libTable := by
  unfold findInterfaceFromPeerAddr
  cases s.routing.interfaceTo peerIP with
  | none => simp
  | some name => trivial

theorem sendToPeer_outcome (dest : IPAddress) (packet : Packet) :
    Outcome (s.sendToPeer dest packet) (fun s' ↦ s'.frame = s.frame ∧ s'.lt = s.lt)
      fun fault ↦ fault ≠ .libTable := by
  apply Outcome.ite
  · intro _
    exact ⟨rfl, rfl⟩
  · intro _
    simp

theorem install_existing {b : FecBind} (h : b.label ∈ s.lt.labels) (hnew : b.label ≠ -1)
    (out : List LabelOp) (nextHop : IPAddress) (color : ℕ) :
    Outcome (s.install b out nextHop color)
      (fun r ↦ r.2 = b ∧ r.1.frame = s.frame ∧ Rewritten s.lt r.1.lt b.label out)
      fun fault ↦ fault ≠ .libTable := by
  apply Outcome.bind (findInterfaceFromPeerAddr_outcome b.peer)
  intro inInterface _
  apply Outcome.bind (findInterfaceFromPeerAddr_outcome nextHop)
  intro outInterface _
  have hinstall := (LIBTable.installLibEntry_existing h hnew inInterface outInterface out color).mono
    (fun _ h ↦ h) (fun fault (hfalse : False) ↦ (hfalse.elim : fault ≠ .libTable))
  apply Outcome.bind hinstall
  rintro ⟨label, lt⟩ ⟨hlabel, hrewritten⟩
  have hlabel : label = b.label := hlabel
  subst hlabel
  exact ⟨rfl, rfl, hrewritten⟩

theorem install_new (fecid : ℕ) (peer : IPAddress) (out : List LabelOp) (nextHop : IPAddress)
    (color : ℕ) :
    Outcome (s.install ⟨fecid, peer, -1⟩ out nextHop color)
      (fun r ↦ r.2 = ⟨fecid, peer, s.lt.maxLabel + 1⟩ ∧ r.1.frame = s.frame ∧
        Added s.lt r.1.lt (s.lt.maxLabel + 1) out)
      fun fault ↦ fault ≠ .libTable := by
  apply Outcome.bind (findInterfaceFromPeerAddr_outcome peer)
  intro inInterface _
  apply Outcome.bind (findInterfaceFromPeerAddr_outcome nextHop)
  intro outInterface _
  have hinstall := (LIBTable.installLibEntry_new s.lt inInterface outInterface out color).mono
    (fun _ h ↦ h) (fun fault (hfalse : False) ↦ (hfalse.elim : fault ≠ .libTable))
  apply Outcome.bind hinstall
  rintro ⟨label, lt⟩ hadded
  have hlabel : label = s.lt.maxLabel + 1 := hadded.allocated
  subst hlabel
  exact ⟨rfl, rfl, hadded⟩

/-- The LIB entries of the FEC's bindings do `out` now, if there are any. -/
structure Updated (fec : Fec) (out : Option (List LabelOp)) (bs : List FecBind) (s s' : LDP) :
    Prop where
  frame : s'.frame = s.frame
  labels : s'.lt.labels = s.lt.labels
  maxLabel : s'.lt.maxLabel = s.lt.maxLabel
  self : ∀ b ∈ bs, b.fecid = fec.fecid → s'.lt.out? b.label = out
  other : ∀ l, (∀ b ∈ bs, b.fecid = fec.fecid → b.label ≠ l) → s'.lt.out? l = s.lt.out? l

/-- The value of `out` in the loop over the upstream bindings. -/
def newOut (dit : Option FecBind) (er : Bool) : Option (List LabelOp) :=
  if er then some popLabel else dit.map fun dit ↦ swapLabel dit.label

theorem adjustBinding_spec (fec : Fec) (dit : Option FecBind) (er : Bool) {b : FecBind}
    (h : b.label ∈ s.lt.labels) (hnew : b.label ≠ -1)
    (hsteady : newOut dit er = none → b.fecid ≠ fec.fecid) :
    Outcome (adjustBinding fec dit er s b)
      (fun r ↦ r.2 = some b ∧ Updated fec (newOut dit er) [b] s r.1)
      fun fault ↦ fault ≠ .libTable := by
  unfold adjustBinding
  apply Outcome.ite
  · intro hne
    refine ⟨rfl, rfl, rfl, rfl, ?_, fun _ _ ↦ rfl⟩
    intro b' hb' heq
    rw [List.mem_singleton.mp hb'] at heq
    exact absurd heq hne
  · intro heq
    have hinstall : ∀ out, newOut dit er = some out → Outcome
        (do
          let r ← s.install b out fec.nextHop LDP_USER_TRAFFIC
          return (r.1, some r.2))
        (fun r ↦ r.2 = some b ∧ Updated fec (newOut dit er) [b] s r.1)
        fun fault ↦ fault ≠ .libTable := by
      intro out hout
      apply Outcome.bind (install_existing h hnew out fec.nextHop LDP_USER_TRAFFIC)
      rintro ⟨s₁, b₁⟩ ⟨rfl, hframe, hrewritten⟩
      refine ⟨rfl, hframe, hrewritten.labels, hrewritten.maxLabel, ?_, ?_⟩
      · intro b' hb' _
        rw [List.mem_singleton.mp hb', hout]
        exact hrewritten.self
      · intro l hl
        exact hrewritten.other l (hl b₁ (by simp) (not_not.mp heq)).symm
    cases er with
    | true => exact hinstall popLabel rfl
    | false =>
      cases dit with
      | some dit => exact hinstall (swapLabel dit.label) rfl
      | none => exact absurd (not_not.mp heq) (hsteady rfl)

theorem adjustUpstream_spec (fec : Fec) (dit : Option FecBind) (er : Bool) (bs : List FecBind)
    (h : ∀ b ∈ bs, b.label ∈ s.lt.labels ∧ b.label ≠ -1)
    (hsteady : newOut dit er = none → ∀ b ∈ bs, b.fecid ≠ fec.fecid) :
    Outcome (adjustUpstream fec dit er s bs)
      (fun r ↦ r.2 = bs ∧ Updated fec (newOut dit er) bs s r.1)
      fun fault ↦ fault ≠ .libTable := by
  induction bs generalizing s with
  | nil => exact ⟨rfl, rfl, rfl, rfl, by simp, fun _ _ ↦ rfl⟩
  | cons b bs ih =>
    have hb := h b (by simp)
    apply Outcome.bind (adjustBinding_spec fec dit er hb.1 hb.2 fun hnone ↦ hsteady hnone b (by simp))
    rintro ⟨s₁, b₁⟩ ⟨hb₁, hfirst⟩
    have hb₁ : b₁ = some b := hb₁
    subst hb₁
    have hrest : ∀ b' ∈ bs, b'.label ∈ s₁.lt.labels ∧ b'.label ≠ -1 := by
      intro b' hb'
      rw [hfirst.labels]
      exact h b' (by simp [hb'])
    apply Outcome.bind (ih hrest fun hnone b' hb' ↦ hsteady hnone b' (by simp [hb']))
    rintro ⟨s₂, bs₂⟩ ⟨hbs₂, hsecond⟩
    have hbs₂ : bs₂ = bs := hbs₂
    subst hbs₂
    refine ⟨rfl, hsecond.frame.trans hfirst.frame, hsecond.labels.trans hfirst.labels,
      hsecond.maxLabel.trans hfirst.maxLabel, ?_, ?_⟩
    · intro b' hb' heq
      rw [List.mem_cons] at hb'
      obtain rfl | hb' := hb'
      · -- a later binding with the same label gets the same entry
        by_cases hlater : ∃ c ∈ bs₂, c.fecid = fec.fecid ∧ c.label = b'.label
        · obtain ⟨c, hc, hid, hlabel⟩ := hlater
          rw [← hlabel]
          exact hsecond.self c hc hid
        · rw [hsecond.other b'.label fun c hc hid hlabel ↦ hlater ⟨c, hc, hid, hlabel⟩]
          exact hfirst.self b' (by simp) heq
      · exact hsecond.self b' hb' heq
    · intro l hl
      rw [hsecond.other l fun c hc ↦ hl c (by simp [hc])]
      apply hfirst.other l
      intro c hc
      exact hl c (by simp [List.mem_singleton.mp hc])

/-- An update of the FEC would have to withdraw no binding. -/
def Steady (s : LDP) (fec : Fec) : Prop :=
  s.expected fec = none → ∀ b ∈ s.fecUp, b.fecid ≠ fec.fecid

theorem newOut_eq (s : LDP) (fec : Fec) :
    newOut (findBind s.fecDown fec.fecid fec.nextHop) (!s.findPeerSocket fec.nextHop) =
      s.expected fec := by
  unfold newOut expected
  cases s.findPeerSocket fec.nextHop with
  | true => rfl
  | false => rfl

theorem Consistent.updated (h : Consistent m fecs dirty s) {fec : Fec}
    (hfec : ∀ f ∈ fecs, f.fecid = fec.fecid → f = fec)
    (hupdated : Updated fec (s.expected fec) s.fecUp s s') :
    Consistent m fecs (fun f ↦ dirty f ∧ f ≠ fec) s' := by
  have hexpected := expected_of_book (book_of_frame hupdated.frame)
  have hframe := hupdated.frame
  simp only [frame, Prod.mk.injEq] at hframe
  obtain ⟨hup, hdown, hpending, hpeers, hmax, -⟩ := hframe
  constructor
  · rw [hupdated.maxLabel]
    exact h.base
  · rw [LIBTable.ownLabels, hupdated.labels, hup]
    exact h.labels
  · rw [hup]
    exact h.nodup
  · rw [hupdated.labels, hupdated.maxLabel]
    exact h.bounded
  · rw [hup, hpending]
    exact h.up
  · rw [hdown]
    exact h.down
  · simpa only [Used, hup, hdown, hpending] using h.known
  · exact h.ids
  · rw [hmax]
    exact h.fresh
  · intro b hb f hf hid hclean
    rw [hup] at hb
    rw [hexpected]
    by_cases hsame : f.fecid = fec.fecid
    · rw [hfec f hf hsame]
      exact hupdated.self b hb (hid.symm.trans hsame)
    · have hother : ∀ c ∈ s.fecUp, c.fecid = fec.fecid → c.label ≠ b.label := by
        intro c hc hcid hlabel
        have heq : c = b := List.inj_on_of_nodup_map h.nodup hc hb hlabel
        rw [heq, ← hid] at hcid
        exact hsame hcid
      rw [hupdated.other b.label hother]
      apply h.forwards b hb f hf hid
      intro hdirty
      exact hclean ⟨hdirty, fun heq ↦ hsame (by rw [heq])⟩
  · rw [hpeers]
    exact h.peers

theorem Consistent.updateFecListEntry (h : Consistent m fecs dirty s) {fec : Fec}
    (hfec : ∀ f ∈ fecs, f.fecid = fec.fecid → f = fec) (hsteady : s.Steady fec) :
    Outcome (s.updateFecListEntry fec)
      (fun s' ↦ s'.frame = s.frame ∧ Consistent m fecs (fun f ↦ dirty f ∧ f ≠ fec) s')
      fun fault ↦ fault ≠ .libTable := by
  apply Outcome.ite
  · intro _
    simp
  · intro _
    have hlabels : ∀ b ∈ s.fecUp, b.label ∈ s.lt.labels ∧ b.label ≠ -1 :=
      fun b hb ↦ ⟨(h.label_mem hb).1, h.label_ne hb⟩
    have hspec := adjustUpstream_spec fec (findBind s.fecDown fec.fecid fec.nextHop)
      (!s.findPeerSocket fec.nextHop) s.fecUp hlabels (by rw [newOut_eq]; exact hsteady)
    rw [newOut_eq] at hspec
    apply Outcome.bind hspec
    rintro ⟨s₁, bs⟩ ⟨hbs, hupdated⟩
    have hbs : bs = s.fecUp := hbs
    subst hbs
    have hframe : { s₁ with fecUp := s.fecUp }.frame = s.frame := by
      have := hupdated.frame
      simp only [frame, Prod.mk.injEq] at this ⊢
      exact ⟨trivial, this.2⟩
    have hnext : ∀ s', s'.frame = s.frame ∧ s'.lt = s₁.lt →
        s'.frame = s.frame ∧ Consistent m fecs (fun f ↦ dirty f ∧ f ≠ fec) s' := by
      rintro s' ⟨hsame, hlt⟩
      refine ⟨hsame, h.updated hfec ⟨hsame, ?_, ?_, ?_, ?_⟩⟩
      · rw [hlt]
        exact hupdated.labels
      · rw [hlt]
        exact hupdated.maxLabel
      · rw [hlt]
        exact hupdated.self
      · rw [hlt]
        exact hupdated.other
    apply Outcome.ite
    · intro _
      apply (sendToPeer_outcome _ _).post
      rintro s' ⟨hsent, hlt⟩
      exact hnext s' ⟨hsent.trans hframe, hlt⟩
    · intro _
      exact hnext _ ⟨hframe, rfl⟩

theorem Consistent.mono {dirty' : Fec → Prop} (h : Consistent m fecs dirty s)
    (hdirty : ∀ f ∈ fecs, dirty f → dirty' f) : Consistent m fecs dirty' s :=
  { h with
    forwards := fun b hb f hf hid hclean ↦
      h.forwards b hb f hf hid fun hd ↦ hclean (hdirty f hf hd) }

theorem Steady.of_book {fec : Fec} (h : s.Steady fec) (hbook : s'.book = s.book) :
    s'.Steady fec := by
  have hup : s'.fecUp = s.fecUp := congrArg Prod.fst hbook
  unfold Steady
  rw [expected_of_book hbook, hup]
  exact h

theorem Consistent.eq_of_fecid (h : Consistent m fecs dirty s) {f g : Fec} (hf : f ∈ fecs)
    (hg : g ∈ fecs) (hid : f.fecid = g.fecid) : f = g :=
  List.inj_on_of_nodup_map h.ids hf hg hid

/-- After the update of all FECs with the next hop, these are no longer dirty. -/
theorem Consistent.updateFecs {nextHop : IPAddress} (todo : List Fec)
    (h : Consistent m fecs dirty s) (hsub : ∀ f ∈ todo, f ∈ fecs)
    (hsteady : ∀ f ∈ todo, f.nextHop = nextHop → s.Steady f) :
    Outcome (updateFecs nextHop s todo)
      (fun s' ↦ s'.frame = s.frame ∧
        Consistent m fecs (fun f ↦ dirty f ∧ (f ∈ todo → f.nextHop ≠ nextHop)) s')
      fun fault ↦ fault ≠ .libTable := by
  induction todo generalizing s dirty with
  | nil => exact ⟨rfl, by simpa using h⟩
  | cons fec rest ih =>
    have hrest : ∀ f ∈ rest, f ∈ fecs := fun f hf ↦ hsub f (by simp [hf])
    apply Outcome.ite
    · intro hne
      apply (ih h hrest fun f hf ↦ hsteady f (by simp [hf])).post
      rintro s' ⟨hframe, hs'⟩
      refine ⟨hframe, hs'.mono ?_⟩
      rintro f _ ⟨hdirty, hother⟩
      refine ⟨hdirty, fun hf ↦ ?_⟩
      obtain rfl | hf := List.mem_cons.mp hf
      · exact hne
      · exact hother hf
    · intro heq
      have hfec := hsub fec (by simp)
      have hupdate := h.updateFecListEntry (fun f hf hid ↦ h.eq_of_fecid hf hfec hid)
        (hsteady fec (by simp) (not_not.mp heq))
      apply Outcome.bind hupdate
      rintro s₁ ⟨hframe₁, h₁⟩
      have hsteady₁ : ∀ f ∈ rest, f.nextHop = nextHop → s₁.Steady f :=
        fun f hf hhop ↦ (hsteady f (by simp [hf]) hhop).of_book (book_of_frame hframe₁)
      apply (ih h₁ hrest hsteady₁).post
      rintro s' ⟨hframe, hs'⟩
      refine ⟨hframe.trans hframe₁, hs'.mono ?_⟩
      rintro f _ ⟨⟨hdirty, hne⟩, hother⟩
      refine ⟨hdirty, fun hf ↦ ?_⟩
      obtain rfl | hf := List.mem_cons.mp hf
      · exact absurd rfl hne
      · exact hother hf

/-! ## Rebuilding the list of FECs -/

section

variable (h : Consistent m fecs dirty s)

include h

theorem Consistent.addFec (fec : Fec)
    (hnew : fec.fecid = s.maxFecid + 1) (hfecs : fecs'.Perm (fec :: fecs)) :
    Consistent m fecs' dirty { s with maxFecid := s.maxFecid + 1 } := by
  have hmem : ∀ f, f ∈ fecs' ↔ f = fec ∨ f ∈ fecs := fun f ↦ by rw [hfecs.mem_iff, List.mem_cons]
  have hids : (fecs'.map Fec.fecid).Perm (fec.fecid :: fecs.map Fec.fecid) := hfecs.map _
  have hfresh : fec.fecid ∉ fecs.map Fec.fecid := by
    intro hin
    obtain ⟨f, hf, hid⟩ := List.mem_map.mp hin
    have := h.fresh f hf
    omega
  exact {
    base := h.base
    labels := h.labels
    nodup := h.nodup
    bounded := h.bounded
    up := h.up
    down := h.down
    known := by
      intro fecid hused
      rw [hids.mem_iff]
      exact List.mem_cons_of_mem _ (h.known fecid hused)
    ids := hids.nodup_iff.mpr (List.nodup_cons.mpr ⟨hfresh, h.ids⟩)
    fresh := by
      intro f hf
      obtain rfl | hf := (hmem f).mp hf
      · exact hnew.le
      · exact (h.fresh f hf).trans (Nat.le_succ _)
    forwards := by
      intro b hb f hf hid hclean
      obtain rfl | hf := (hmem f).mp hf
      · rw [hid] at hfresh
        exact absurd (h.known b.fecid (.inl ⟨b, hb, rfl⟩)) hfresh
      · exact h.forwards b hb f hf hid hclean
    peers := h.peers }

theorem Consistent.changeFec (fec fec' : Fec) {rest : List Fec}
    (hid : fec'.fecid = fec.fecid) (hfecs : fecs.Perm (fec :: rest))
    (hfecs' : fecs'.Perm (fec' :: rest)) :
    Consistent m fecs' (fun f ↦ dirty f ∨ f = fec') s := by
  have hids : (fecs'.map Fec.fecid).Perm (fecs.map Fec.fecid) := by
    have h1 := hfecs.map Fec.fecid
    have h2 := hfecs'.map Fec.fecid
    rw [List.map_cons] at h1 h2
    rw [hid] at h2
    exact h2.trans h1.symm
  have hmem : ∀ f ∈ fecs', f = fec' ∨ f ∈ fecs := by
    intro f hf
    rw [hfecs'.mem_iff, List.mem_cons] at hf
    rw [hfecs.mem_iff, List.mem_cons]
    tauto
  exact {
    base := h.base
    labels := h.labels
    nodup := h.nodup
    bounded := h.bounded
    up := h.up
    down := h.down
    known := fun fecid hused ↦ hids.mem_iff.mpr (h.known fecid hused)
    ids := hids.nodup_iff.mpr h.ids
    fresh := by
      intro f hf
      have hmax : ∀ id ∈ fecs.map Fec.fecid, id ≤ s.maxFecid := by
        intro id hin
        obtain ⟨g, hg, rfl⟩ := List.mem_map.mp hin
        exact h.fresh g hg
      exact hmax f.fecid (hids.mem_iff.mp (List.mem_map_of_mem hf))
    forwards := by
      intro b hb f hf hidf hclean
      obtain rfl | hf := hmem f hf
      · exact absurd (.inr rfl) hclean
      · exact h.forwards b hb f hf hidf fun hd ↦ hclean (.inl hd)
    peers := h.peers }

theorem Consistent.dropFecs {kept dropped : List Fec}
    (hfecs : fecs.Perm (kept ++ dropped)) (hunused : ∀ f ∈ dropped, ¬ s.Used f.fecid) :
    Consistent m kept dirty s := by
  have hids : (fecs.map Fec.fecid).Perm (kept.map Fec.fecid ++ dropped.map Fec.fecid) := by
    simpa using hfecs.map Fec.fecid
  have hmem : ∀ f ∈ kept, f ∈ fecs := by
    intro f hf
    rw [hfecs.mem_iff, List.mem_append]
    exact .inl hf
  exact {
    base := h.base
    labels := h.labels
    nodup := h.nodup
    bounded := h.bounded
    up := h.up
    down := h.down
    known := by
      intro fecid hused
      have hin := hids.mem_iff.mp (h.known fecid hused)
      obtain hkept | hdropped := List.mem_append.mp hin
      · exact hkept
      · obtain ⟨f, hf, rfl⟩ := List.mem_map.mp hdropped
        exact absurd hused (hunused f hf)
    ids := (List.nodup_append.mp (hids.nodup_iff.mp h.ids)).1
    fresh := fun f hf ↦ h.fresh f (hmem f hf)
    forwards := fun b hb f hf ↦ h.forwards b hb f (hmem f hf)
    peers := h.peers }

theorem Consistent.perm (hfecs : fecs.Perm fecs') :
    Consistent m fecs' dirty s := by
  have hnone : fecs.Perm (fecs' ++ []) := by simpa using hfecs
  exact h.dropFecs hnone (by simp)

theorem Consistent.setFecList (fecList : List Fec) :
    Consistent m fecs dirty { s with fecList } :=
  ⟨h.base, h.labels, h.nodup, h.bounded, h.up, h.down, h.known, h.ids, h.fresh, h.forwards, h.peers⟩

end

/-- The old FECs that are left when the one for the route has been taken. -/
def strike (oldList : List Fec) (re : Route) : List Fec :=
  if re.host.isMulticast then oldList else oldList.eraseP (Fec.is re.host re.netmaskLength)

/-- The FEC found in the old list moves to the end of the new one. -/
theorem perm_move (fecList : List Fec) (it' : Fec) {oldList : List Fec} {it : Fec}
    {addr : IPAddress} {length : ℤ} (hfind : findFecEntry oldList addr length = some it) :
    ∃ rest, (fecList ++ oldList).Perm (it :: rest) ∧
      (fecList ++ [it'] ++ oldList.eraseP (Fec.is addr length)).Perm (it' :: rest) := by
  obtain ⟨hit, l₁, l₂, rfl, hbefore⟩ := List.find?_eq_some_iff_append.mp hfind
  have herase : (l₁ ++ it :: l₂).eraseP (Fec.is addr length) = l₁ ++ l₂ := by
    rw [List.eraseP_append_right _ fun x hx ↦ by simpa using hbefore x hx,
      List.eraseP_cons_of_pos hit]
  refine ⟨fecList ++ (l₁ ++ l₂), ?_, ?_⟩
  · rw [← List.append_assoc, ← List.append_assoc]
    exact List.perm_middle
  · rw [herase, List.append_assoc]
    exact List.perm_middle

theorem Consistent.rebuildRoute {oldList : List Fec} {re : Route}
    (h : Consistent m (s.fecList ++ oldList) (fun _ ↦ False) s)
    (hsteady : ∀ f ∈ oldList, Fec.is re.host re.netmaskLength f = true → f.nextHop ≠ re.nextHop →
      s.Steady { f with nextHop := re.nextHop }) :
    Outcome (s.rebuildRoute oldList re)
      (fun r ↦ Consistent m (r.1.fecList ++ r.2) (fun _ ↦ False) r.1 ∧ r.1.book = s.book ∧
        r.2 = strike oldList re)
      fun fault ↦ fault ≠ .libTable := by
  apply Outcome.ite
  · intro hmulticast
    exact ⟨h, rfl, by rw [strike, if_pos hmulticast]⟩
  · intro hmulticast
    have hstrike : strike oldList re = oldList.eraseP (Fec.is re.host re.netmaskLength) := by
      rw [strike, if_neg hmulticast]
    apply Outcome.ite
    · intro _
      simp
    · intro _
      cases hfind : findFecEntry oldList re.host re.netmaskLength with
      | none =>
        generalize hfec : (⟨s.maxFecid + 1, re.host, re.netmaskLength, re.nextHop⟩ : Fec) = fec
        have hid : fec.fecid = s.maxFecid + 1 := by rw [← hfec]
        have hadd : Consistent m (s.fecList ++ [fec] ++ oldList) (fun _ ↦ False)
            { s with maxFecid := s.maxFecid + 1 } := by
          apply h.addFec fec hid
          rw [List.append_assoc]
          exact List.perm_middle
        have hmem : fec ∈ s.fecList ++ [fec] ++ oldList := by simp
        have hnone : ∀ b ∈ s.fecUp, b.fecid ≠ fec.fecid := by
          intro b hb heq
          obtain ⟨f, hf, hfid⟩ := List.mem_map.mp (h.known b.fecid (.inl ⟨b, hb, rfl⟩))
          have := h.fresh f hf
          omega
        have hold : oldList = strike oldList re := by
          rw [hstrike, List.eraseP_of_forall_not]
          exact fun f hf ↦ List.find?_eq_none.mp hfind f hf
        apply Outcome.bind (hadd.updateFecListEntry (fun f hf hid ↦ hadd.eq_of_fecid hf hmem hid)
          fun _ ↦ hnone)
        rintro s₁ ⟨hframe, h₁⟩
        have hlist : s₁.fecList = s.fecList := by
          simp only [frame, Prod.mk.injEq] at hframe
          exact hframe.2.2.2.2.2
        have hbook : s₁.book = s.book := (book_of_frame hframe).trans rfl
        refine ⟨?_, hbook, hold⟩
        have hclean := h₁.mono fun f _ hd ↦ (hd.1 : False)
        rw [← hlist] at hclean
        exact hclean.setFecList _
      | some it =>
        have hit := List.find?_some hfind
        have hmem := List.mem_of_find?_eq_some hfind
        obtain ⟨rest, hbefore, hafter⟩ := perm_move s.fecList
          { it with nextHop := re.nextHop } hfind
        have hnext : Outcome (s.updateNextHop it re.nextHop)
            (fun s₁ ↦ s₁.frame = s.frame ∧ Consistent m (s.fecList ++
              [{ it with nextHop := re.nextHop }] ++ oldList.eraseP
                (Fec.is re.host re.netmaskLength)) (fun _ ↦ False) s₁)
            fun fault ↦ fault ≠ .libTable := by
          apply Outcome.ite
          · intro hne
            have hchange := h.changeFec it { it with nextHop := re.nextHop } rfl hbefore hafter
            apply (hchange.updateFecListEntry ?_ (hsteady it hmem hit hne)).post
            · rintro s₁ ⟨hframe, h₁⟩
              refine ⟨hframe, h₁.mono ?_⟩
              rintro f _ ⟨hfalse | heq, hne⟩
              · exact hfalse
              · exact hne heq
            · intro f hf hid
              exact hchange.eq_of_fecid hf (by simp) hid
          · intro heq
            have hsame : ({ it with nextHop := re.nextHop } : Fec) = it := by
              rw [← not_not.mp heq]
            refine ⟨rfl, h.perm ?_⟩
            rw [hsame] at hafter ⊢
            exact hbefore.trans hafter.symm
        apply Outcome.bind hnext
        rintro s₁ ⟨hframe, h₁⟩
        have hlist : s₁.fecList = s.fecList := by
          simp only [frame, Prod.mk.injEq] at hframe
          exact hframe.2.2.2.2.2
        have hbook : s₁.book = s.book := book_of_frame hframe
        refine ⟨?_, hbook, hstrike.symm⟩
        rw [← hlist] at h₁
        exact h₁.setFecList _

theorem strike_subset (oldList : List Fec) (re : Route) : strike oldList re ⊆ oldList := by
  unfold strike
  split
  · exact List.Subset.refl _
  · exact List.eraseP_subset

theorem Consistent.rebuildRoutes {oldList : List Fec} (routes : List Route)
    (h : Consistent m (s.fecList ++ oldList) (fun _ ↦ False) s)
    (hsteady : ∀ re ∈ routes, ∀ f ∈ oldList, Fec.is re.host re.netmaskLength f = true →
      f.nextHop ≠ re.nextHop → s.Steady { f with nextHop := re.nextHop }) :
    Outcome (rebuildRoutes s oldList routes)
      (fun r ↦ Consistent m (r.1.fecList ++ r.2) (fun _ ↦ False) r.1 ∧ r.1.book = s.book ∧
        r.2 = routes.foldl strike oldList)
      fun fault ↦ fault ≠ .libTable := by
  induction routes generalizing s oldList with
  | nil => exact ⟨h, rfl, rfl⟩
  | cons re rest ih =>
    apply Outcome.bind (h.rebuildRoute (hsteady re (by simp)))
    rintro ⟨s₁, oldList₁⟩ ⟨h₁, hbook, hold⟩
    have hold : oldList₁ = strike oldList re := hold
    subst hold
    have hbook : s₁.book = s.book := hbook
    apply (ih h₁ ?_).post
    · rintro r ⟨h', hbook', hold'⟩
      exact ⟨h', hbook'.trans hbook, hold'⟩
    · intro re' hre' f hf his hne
      have hf' : f ∈ oldList := strike_subset oldList re hf
      exact (hsteady re' (by simp [hre']) f hf' his hne).of_book hbook

/-- The old FECs that are left when the ones for the router's addresses have been taken. -/
def strikeAddress (oldList : List Fec) (addr : IPAddress) : List Fec :=
  oldList.eraseP (Fec.is addr 32)

theorem Consistent.rebuildAddresses (addrs : List IPAddress) {oldList : List Fec}
    (h : Consistent m (s.fecList ++ oldList) (fun _ ↦ False) s) :
    ∃ s', rebuildAddresses s oldList addrs = (s', addrs.foldl strikeAddress oldList) ∧
      Consistent m (s'.fecList ++ addrs.foldl strikeAddress oldList) (fun _ ↦ False) s' ∧
      s'.book = s.book := by
  induction addrs generalizing s oldList with
  | nil => exact ⟨s, rfl, h, rfl⟩
  | cons addr rest ih =>
    simp only [LDP.rebuildAddresses, List.foldl_cons]
    cases hfind : findFecEntry oldList addr 32 with
    | none =>
      have hold : strikeAddress oldList addr = oldList :=
        List.eraseP_of_forall_not fun f hf ↦ List.find?_eq_none.mp hfind f hf
      have hadd : Consistent m (s.fecList ++ [⟨s.maxFecid + 1, addr, 32, addr⟩] ++ oldList)
          (fun _ ↦ False) { s with maxFecid := s.maxFecid + 1 } := by
        apply h.addFec ⟨s.maxFecid + 1, addr, 32, addr⟩ rfl
        rw [List.append_assoc]
        exact List.perm_middle
      rw [hold]
      exact ih (hadd.setFecList _)
    | some it =>
      obtain ⟨perm, hbefore, hafter⟩ := perm_move s.fecList it hfind
      have hmove : Consistent m (s.fecList ++ [it] ++ strikeAddress oldList addr)
          (fun _ ↦ False) s := h.perm (hbefore.trans hafter.symm)
      exact ih (hmove.setFecList _)

/-- The FECs for which there is no route and no address any more. -/
def deprecated (s : LDP) : List Fec :=
  s.routing.interfaceAddresses.foldl strikeAddress (s.routing.routes.foldl strike s.fecList)

theorem releaseDownstream_eq {it : Fec} (ds : List FecBind) (h : ∀ d ∈ ds, d.fecid ≠ it.fecid) :
    releaseDownstream it s ds = .ok s := by
  induction ds with
  | nil => rfl
  | cons d ds ih =>
    rw [releaseDownstream, release, if_neg (h d (by simp)), ok_bind]
    exact ih fun d' hd' ↦ h d' (by simp [hd'])

theorem withdrawUpstream_eq {it : Fec} (bs : List FecBind) (h : ∀ b ∈ bs, b.fecid ≠ it.fecid) :
    withdrawUpstream it s bs = .ok s := by
  induction bs with
  | nil => rfl
  | cons b bs ih =>
    rw [withdrawUpstream, withdraw, if_neg (h b (by simp)), ok_bind]
    exact ih fun b' hb' ↦ h b' (by simp [hb'])

theorem removeFecs_eq (its : List Fec) (h : ∀ f ∈ its, ¬ s.Used f.fecid) :
    removeFecs s its = .ok s := by
  induction its with
  | nil => rfl
  | cons it its ih =>
    have hunused := h it (by simp)
    rw [removeFecs, releaseDownstream_eq, ok_bind, withdrawUpstream_eq, ok_bind]
    · exact ih fun f hf ↦ h f (by simp [hf])
    · intro b hb heq
      exact hunused (.inl ⟨b, hb, heq⟩)
    · intro d hd heq
      exact hunused (.inr (.inl ⟨d, hd, heq⟩))

theorem Used.of_book {fecid : ℕ} (h : s'.Used fecid) (hbook : s'.book = s.book) : s.Used fecid := by
  simp only [book, Prod.mk.injEq] at hbook
  simpa only [Used, hbook] using h

/-- The list of FECs is rebuilt without withdrawing bindings and without dropping FECs that are in
use. -/
theorem Consistent.rebuildFecList (h : Consistent m s.fecList (fun _ ↦ False) s)
    (hsteady : ∀ re ∈ s.routing.routes, ∀ f ∈ s.fecList, Fec.is re.host re.netmaskLength f = true →
      f.nextHop ≠ re.nextHop → s.Steady { f with nextHop := re.nextHop })
    (hunused : ∀ f ∈ s.deprecated, ¬ s.Used f.fecid) :
    Outcome s.rebuildFecList (fun s' ↦ Consistent m s'.fecList (fun _ ↦ False) s' ∧
      s'.book = s.book) fun fault ↦ fault ≠ .libTable := by
  have hstart : Consistent m ({ s with fecList := [] }.fecList ++ s.fecList) (fun _ ↦ False)
      { s with fecList := [] } := h.setFecList []
  apply Outcome.bind (hstart.rebuildRoutes s.routing.routes hsteady)
  rintro ⟨s₁, oldList₁⟩ ⟨h₁, hbook₁, hold₁⟩
  have hbook₁ : s₁.book = s.book := hbook₁
  have hold₁ : oldList₁ = s.routing.routes.foldl strike s.fecList := hold₁
  obtain ⟨s₂, heq, h₂, hbook₂⟩ := h₁.rebuildAddresses s.routing.interfaceAddresses
  have hbook : s₂.book = s.book := hbook₂.trans hbook₁
  have hdeprecated : s.routing.interfaceAddresses.foldl strikeAddress oldList₁ = s.deprecated := by
    rw [hold₁]
    rfl
  rw [hdeprecated] at heq h₂
  have hunused₂ : ∀ f ∈ s.deprecated, ¬ s₂.Used f.fecid :=
    fun f hf hused ↦ hunused f hf (hused.of_book hbook)
  dsimp only
  rw [heq]
  dsimp only
  rw [removeFecs_eq s.deprecated hunused₂, ok_bind]
  refine ⟨?_, hbook⟩
  have hkept := h₂.dropFecs (List.Perm.refl _) hunused₂
  exact (hkept.perm (FecSort.perm _ _).symm).setFecList _

/-! ## Peers -/

theorem Consistent.expected_isSome (h : Consistent m fecs dirty s) {b : FecBind} {f : Fec}
    (hb : b ∈ s.fecUp) (hf : f ∈ fecs) (hid : f.fecid = b.fecid) (hclean : ¬ dirty f) :
    (s.expected f).isSome := by
  rw [← h.forwards b hb f hf hid hclean]
  exact LIBTable.out?_isSome (h.label_mem hb).1

/-- The state after a change of peers and downstream bindings that only concerns dirty FECs. -/
theorem Consistent.setPeers (h : Consistent m fecs (fun _ ↦ False) s) (hup : s'.fecUp = s.fecUp)
    (hpending : s'.pending = s.pending) (hlt : s'.lt = s.lt) (hmax : s'.maxFecid = s.maxFecid)
    (hdown : ∀ d ∈ s'.fecDown, d ∈ s.fecDown ∨ d.fecid ∈ fecs.map Fec.fecid)
    (hkeys : (s'.fecDown.map FecBind.key).Nodup)
    (hpeers : (s'.myPeers.map PeerInfo.peerIP).Nodup)
    (hexpected : ∀ f ∈ fecs, ¬ dirty f → (s.expected f).isSome → s'.expected f = s.expected f) :
    Consistent m fecs dirty s' := by
  constructor
  · rw [hlt]
    exact h.base
  · rw [hlt, hup]
    exact h.labels
  · rw [hup]
    exact h.nodup
  · rw [hlt]
    exact h.bounded
  · rw [hup, hpending]
    exact h.up
  · exact hkeys
  · intro fecid hused
    obtain ⟨b, hb, hid⟩ | ⟨d, hd, hid⟩ | ⟨r, hr, hid⟩ := hused
    · exact h.known fecid (.inl ⟨b, hup ▸ hb, hid⟩)
    · obtain hold | hnew := hdown d hd
      · exact h.known fecid (.inr (.inl ⟨d, hold, hid⟩))
      · rw [← hid]
        exact hnew
    · exact h.known fecid (.inr (.inr ⟨r, hpending ▸ hr, hid⟩))
  · exact h.ids
  · rw [hmax]
    exact h.fresh
  · intro b hb f hf hid hclean
    rw [hup] at hb
    rw [hlt, hexpected f hf hclean (h.expected_isSome hb hf hid not_false)]
    exact h.forwards b hb f hf hid not_false
  · exact hpeers

theorem expected_congr {fec : Fec}
    (hsocket : s'.findPeerSocket fec.nextHop = s.findPeerSocket fec.nextHop)
    (hdown : findBind s'.fecDown fec.fecid fec.nextHop = findBind s.fecDown fec.fecid fec.nextHop) :
    s'.expected fec = s.expected fec := by
  unfold expected
  rw [hsocket, hdown]

theorem Consistent.addPeer (h : Consistent m fecs (fun _ ↦ False) s) (peer : PeerInfo)
    (hnew : ∀ p ∈ s.myPeers, p.peerIP ≠ peer.peerIP)
    (hsocket : peer.socket.any Socket.connected = false) :
    Consistent m fecs (fun _ ↦ False) { s with myPeers := s.myPeers ++ [peer] } := by
  refine h.setPeers rfl rfl rfl rfl (fun d hd ↦ .inl hd) h.down ?_ ?_
  · rw [List.map_append, List.nodup_append]
    refine ⟨h.peers, by simp, ?_⟩
    intro a ha b hb
    obtain ⟨p, hp, rfl⟩ := List.mem_map.mp ha
    rw [List.map_singleton, List.mem_singleton] at hb
    rw [hb]
    exact hnew p hp
  · intro f _ _ _
    refine expected_congr ?_ rfl
    simp only [findPeerSocket, findPeer, List.find?_append]
    cases s.myPeers.find? fun p ↦ p.peerIP = f.nextHop with
    | some p => rfl
    | none =>
      by_cases hpeer : peer.peerIP = f.nextHop
      · simp [hpeer, hsocket]
      · simp [hpeer]

theorem Consistent.processLDPHello (h : Consistent m s.fecList (fun _ ↦ False) s)
    (peerAddr : IPAddress) (linkInterface : String) :
    Consistent m (s.processLDPHello peerAddr linkInterface).fecList (fun _ ↦ False)
      (s.processLDPHello peerAddr linkInterface) := by
  unfold LDP.processLDPHello
  split
  · exact h
  · cases hfind : s.findPeer peerAddr with
    | some _ => exact h
    | none =>
      have hnew : ∀ p ∈ s.myPeers, p.peerIP ≠ peerAddr := by
        intro p hp
        simpa using List.find?_eq_none.mp hfind p hp
      apply h.addPeer ⟨peerAddr, linkInterface, _, _⟩ hnew
      dsimp only
      split <;> rfl

theorem findBind_filter_of_ne {fecid : ℕ} {peer gone : IPAddress} (hne : peer ≠ gone)
    (ds : List FecBind) :
    findBind (ds.filter fun d ↦ d.peer ≠ gone) fecid peer = findBind ds fecid peer := by
  unfold findBind
  rw [List.find?_filter]
  congr 1
  funext d
  by_cases hd : d.peer = peer
  · simp [hd, hne]
  · simp [hd]

/-- Only the session with the peer at this position is lost. -/
theorem find?_eraseIdx_of_ne {peers : List PeerInfo} {i : ℕ} {peer : PeerInfo} {ip : IPAddress}
    (hpeer : peers[i]? = some peer) (hne : ip ≠ peer.peerIP) :
    (peers.eraseIdx i).find? (fun p ↦ p.peerIP = ip) = peers.find? fun p ↦ p.peerIP = ip := by
  induction peers generalizing i with
  | nil => cases hpeer
  | cons p ps ih =>
    cases i with
    | zero =>
      simp only [List.getElem?_cons_zero, Option.some.injEq] at hpeer
      rw [hpeer, List.eraseIdx_cons_zero, List.find?_cons_of_neg (by simpa using hne.symm)]
    | succ i =>
      simp only [List.getElem?_cons_succ] at hpeer
      simp only [List.eraseIdx_cons_succ, List.find?_cons, ih hpeer]

theorem not_mem_eraseIdx {peers : List PeerInfo} {i : ℕ} {peer : PeerInfo}
    (hnodup : (peers.map PeerInfo.peerIP).Nodup) (hpeer : peers[i]? = some peer) :
    (peers.eraseIdx i).find? (fun p ↦ p.peerIP = peer.peerIP) = none := by
  induction peers generalizing i with
  | nil => cases hpeer
  | cons p ps ih =>
    rw [List.map_cons, List.nodup_cons] at hnodup
    cases i with
    | zero =>
      simp only [List.getElem?_cons_zero, Option.some.injEq] at hpeer
      rw [List.eraseIdx_cons_zero, List.find?_eq_none, ← hpeer]
      intro q hq heq
      exact hnodup.1 (List.mem_map.mpr ⟨q, hq, by simpa using heq⟩)
    | succ i =>
      simp only [List.getElem?_cons_succ] at hpeer
      rw [List.eraseIdx_cons_succ, List.find?_cons_of_neg]
      · exact ih hnodup.2 hpeer
      · simp only [decide_eq_true_eq]
        intro heq
        exact hnodup.1 (List.mem_map.mpr ⟨peer, List.mem_of_getElem? hpeer, heq.symm⟩)

/-- Once the FECs with a next hop are updated, no FEC is left to be updated. -/
theorem Consistent.updateFecList {nextHop : IPAddress}
    (h : Consistent m s.fecList (fun f ↦ f.nextHop = nextHop) s)
    (hsteady : ∀ f ∈ s.fecList, f.nextHop = nextHop → s.Steady f) :
    Outcome (s.updateFecList nextHop) (fun s' ↦ Consistent m s'.fecList (fun _ ↦ False) s')
      fun fault ↦ fault ≠ .libTable := by
  apply (h.updateFecs s.fecList (fun f hf ↦ hf) hsteady).post
  rintro s' ⟨hframe, h'⟩
  have hlist : s'.fecList = s.fecList := by
    simp only [frame, Prod.mk.injEq] at hframe
    exact hframe.2.2.2.2.2
  rw [hlist]
  apply h'.mono
  rintro f hf ⟨hhop, hother⟩
  exact hother hf hhop

theorem Consistent.processHelloTimeout (h : Consistent m s.fecList (fun _ ↦ False) s) (i : ℕ)
    (hbound : ∀ peer ∈ s.myPeers[i]?, ∀ b ∈ s.fecUp, b.peer ≠ peer.peerIP) :
    Outcome (s.processHelloTimeout i) (fun s' ↦ Consistent m s'.fecList (fun _ ↦ False) s')
      fun fault ↦ fault ≠ .libTable := by
  unfold LDP.processHelloTimeout
  cases hpeer : s.myPeers[i]? with
  | none => simp
  | some peer =>
    apply Outcome.ite
    · intro _
      simp
    · intro _
      have hup : (s.fecUp.filter fun uit ↦ uit.peer ≠ peer.peerIP) = s.fecUp := by
        rw [List.filter_eq_self]
        intro b hb
        simpa using hbound peer (by rw [hpeer]; rfl) b hb
      have hnone := not_mem_eraseIdx h.peers hpeer
      generalize hs : ({ s with
        myPeers := s.myPeers.eraseIdx i
        fecDown := s.fecDown.filter fun dit ↦ dit.peer ≠ peer.peerIP
        fecUp := s.fecUp.filter fun uit ↦ uit.peer ≠ peer.peerIP } : LDP) = s₁
      have hsocket : s₁.findPeerSocket peer.peerIP = false := by
        rw [← hs, findPeerSocket, findPeer, hnone]
        rfl
      have hlist : s₁.fecList = s.fecList := by rw [← hs]
      have h₁ : Consistent m s.fecList (fun f ↦ f.nextHop = peer.peerIP) s₁ := by
        rw [← hs]
        refine h.setPeers hup rfl rfl rfl ?_ ?_ ?_ ?_
        · intro d hd
          exact .inl (List.mem_of_mem_filter hd)
        · exact (List.filter_sublist.map _).nodup h.down
        · exact ((List.eraseIdx_sublist _ _).map _).nodup h.peers
        · intro f _ hhop _
          apply expected_congr
          · simp only [findPeerSocket, findPeer, find?_eraseIdx_of_ne hpeer hhop]
          · exact findBind_filter_of_ne hhop s.fecDown
      have hsteady : ∀ f ∈ s.fecList, f.nextHop = peer.peerIP → s₁.Steady f := by
        intro f _ hhop hnone
        simp [expected, hhop, hsocket] at hnone
      rw [← hlist] at h₁ hsteady
      exact h₁.updateFecList hsteady

theorem map_peerIP_set {peers : List PeerInfo} {i : ℕ} {peer : PeerInfo} (peer' : PeerInfo)
    (hpeer : peers[i]? = some peer) (hip : peer'.peerIP = peer.peerIP) :
    (peers.set i peer').map PeerInfo.peerIP = peers.map PeerInfo.peerIP := by
  induction peers generalizing i with
  | nil => rfl
  | cons p ps ih =>
    cases i with
    | zero =>
      simp only [List.getElem?_cons_zero, Option.some.injEq] at hpeer
      simp [hip, hpeer]
    | succ i =>
      simp only [List.getElem?_cons_succ] at hpeer
      simp [ih hpeer]

theorem find?_set_of_ne {peers : List PeerInfo} {i : ℕ} {peer : PeerInfo} {ip : IPAddress}
    (peer' : PeerInfo) (hpeer : peers[i]? = some peer) (hip : peer'.peerIP = peer.peerIP)
    (hne : ip ≠ peer.peerIP) :
    (peers.set i peer').find? (fun p ↦ p.peerIP = ip) = peers.find? fun p ↦ p.peerIP = ip := by
  induction peers generalizing i with
  | nil => cases hpeer
  | cons p ps ih =>
    cases i with
    | zero =>
      simp only [List.getElem?_cons_zero, Option.some.injEq] at hpeer
      rw [List.set_cons_zero, List.find?_cons_of_neg (by simpa [hip] using hne.symm),
        List.find?_cons_of_neg (by simpa [hpeer] using hne.symm)]
    | succ i =>
      simp only [List.getElem?_cons_succ] at hpeer
      simp only [List.set_cons_succ, List.find?_cons, ih hpeer]

/-- None of the FECs that will be requested from the peer has an upstream binding. -/
def Unbound (s : LDP) (nextHop : IPAddress) : Prop :=
  ∀ f ∈ s.fecList, f.nextHop = nextHop → findBind s.fecDown f.fecid nextHop = none →
    ∀ b ∈ s.fecUp, b.fecid ≠ f.fecid

section

variable (h : Consistent m s.fecList (fun _ ↦ False) s)

include h

theorem Consistent.connect {i : ℕ} {peer : PeerInfo}
    (hpeer : s.myPeers[i]? = some peer) (hunbound : s.Unbound peer.peerIP) :
    Outcome ((s.connect i peer i).socketEstablished i)
      (fun s' ↦ Consistent m s'.fecList (fun _ ↦ False) s') fun fault ↦ fault ≠ .libTable := by
  have hlt : i < s.myPeers.length := (List.getElem?_eq_some_iff.mp hpeer).1
  have hself : (s.connect i peer i).myPeers[i]? =
      some { peer with socket := some ⟨true, i⟩ } := by
    simp [LDP.connect, hlt]
  have h₁ : Consistent m s.fecList (fun f ↦ f.nextHop = peer.peerIP) (s.connect i peer i) := by
    refine h.setPeers rfl rfl rfl rfl (fun d hd ↦ .inl hd) h.down ?_ ?_
    · rw [LDP.connect, map_peerIP_set { peer with socket := some ⟨true, i⟩ } hpeer rfl]
      exact h.peers
    · intro f _ hhop _
      apply expected_congr
      · simp only [findPeerSocket, findPeer, LDP.connect]
        rw [find?_set_of_ne { peer with socket := some ⟨true, i⟩ } hpeer rfl hhop]
      · rfl
  simp only [socketEstablished, hself]
  apply Consistent.updateFecList
  · exact h₁
  · intro f hf hhop hnone
    apply hunbound f hf hhop
    unfold expected at hnone
    split at hnone
    · rw [hhop, Option.map_eq_none_iff] at hnone
      exact hnone
    · cases hnone

theorem Consistent.connectionEstablished (i : ℕ)
    (hptr : ∀ peer ∈ s.myPeers[i]?, ∀ socket ∈ peer.socket, socket.yourPtr = i)
    (hunbound : ∀ peer ∈ s.myPeers[i]?, s.Unbound peer.peerIP) :
    Outcome (s.connectionEstablished i) (fun s' ↦ Consistent m s'.fecList (fun _ ↦ False) s')
      fun fault ↦ fault ≠ .libTable := by
  unfold LDP.connectionEstablished
  cases hpeer : s.myPeers[i]? with
  | none => exact h
  | some peer =>
    have hmem : peer ∈ s.myPeers[i]? := hpeer
    cases hsocket : peer.socket with
    | none => simpa [hsocket] using h
    | some socket =>
      have hi := hptr peer hmem socket hsocket
      simp only [hsocket, hi]
      exact h.connect hpeer (hunbound peer hmem)

theorem Consistent.incomingConnection (remoteAddr : IPAddress) (hunbound : s.Unbound remoteAddr) :
    Outcome (s.incomingConnection remoteAddr)
      (fun s' ↦ Consistent m s'.fecList (fun _ ↦ False) s') fun fault ↦ fault ≠ .libTable := by
  unfold LDP.incomingConnection
  cases hpeer : s.myPeers[s.myPeers.findIdx fun p ↦ p.peerIP = remoteAddr]? with
  | none => simpa [hpeer] using h
  | some peer =>
    have hip : peer.peerIP = remoteAddr := by
      simpa using List.findIdx_of_getElem?_eq_some hpeer
    simp only [hpeer]
    apply Outcome.ite
    · intro _
      exact h
    · intro _
      apply h.connect hpeer
      rw [hip]
      exact hunbound

end

/-! ## Messages -/

theorem Consistent.of_frame (h : Consistent m fecs dirty s) (hframe : s'.frame = s.frame)
    (hlt : s'.lt = s.lt) : Consistent m fecs dirty s' := by
  have hexpected := expected_of_book (book_of_frame hframe)
  simp only [frame, Prod.mk.injEq] at hframe
  obtain ⟨hup, hdown, hpending, hpeers, hmax, -⟩ := hframe
  constructor
  · rw [hlt]
    exact h.base
  · rw [hlt, hup]
    exact h.labels
  · rw [hup]
    exact h.nodup
  · rw [hlt]
    exact h.bounded
  · rw [hup, hpending]
    exact h.up
  · rw [hdown]
    exact h.down
  · simpa only [Used, hup, hdown, hpending] using h.known
  · exact h.ids
  · rw [hmax]
    exact h.fresh
  · intro b hb f hf hid hclean
    rw [hlt, hexpected]
    exact h.forwards b (hup ▸ hb) f hf hid hclean
  · rw [hpeers]
    exact h.peers

theorem Consistent.sendToPeer (h : Consistent m s.fecList (fun _ ↦ False) s) (dest : IPAddress)
    (packet : Packet) :
    Outcome (s.sendToPeer dest packet) (fun s' ↦ Consistent m s'.fecList (fun _ ↦ False) s')
      fun fault ↦ fault ≠ .libTable := by
  apply (sendToPeer_outcome dest packet).post
  rintro s' ⟨hframe, hlt⟩
  have hlist : s'.fecList = s.fecList := by
    simp only [frame, Prod.mk.injEq] at hframe
    exact hframe.2.2.2.2.2
  rw [hlist]
  exact h.of_frame hframe hlt

theorem Consistent.processNOTIFICATION (h : Consistent m s.fecList (fun _ ↦ False) s)
    (packet : Packet) (isSelfMessage : Bool) :
    Outcome (s.processNOTIFICATION packet isSelfMessage)
      (fun s' ↦ Consistent m s'.fecList (fun _ ↦ False) s') fun fault ↦ fault ≠ .libTable := by
  unfold LDP.processNOTIFICATION
  cases findFecEntry s.fecList packet.addr packet.length with
  | none => exact h
  | some it =>
    apply Outcome.ite
    · intro _
      apply Outcome.ite
      · intro _
        exact h.sendToPeer _ _
      · intro _
        exact h.of_frame rfl rfl
    · intro _
      exact h

theorem findBind_eq_none {bs : List FecBind} {fecid : ℕ} {peer : IPAddress} :
    findBind bs fecid peer = none ↔ (fecid, peer) ∉ bs.map FecBind.key := by
  simp only [findBind, List.find?_eq_none, List.mem_map, not_exists, not_and, FecBind.key,
    Prod.mk.injEq, Bool.and_eq_true, decide_eq_true_eq]

theorem findBind_eq_some {bs : List FecBind} {fecid : ℕ} {peer : IPAddress} {b : FecBind}
    (h : findBind bs fecid peer = some b) : b ∈ bs ∧ b.fecid = fecid ∧ b.peer = peer := by
  have hb := List.find?_some h
  simp only [Bool.and_eq_true, decide_eq_true_eq] at hb
  exact ⟨List.mem_of_find?_eq_some h, hb.1, hb.2⟩

/-- The peer has got a binding with a new label. -/
structure Answered (s s' : LDP) (fecid : ℕ) (peer : IPAddress) (out : List LabelOp) : Prop where
  fecUp : s'.fecUp = s.fecUp ++ [⟨fecid, peer, s.lt.maxLabel + 1⟩]
  fecDown : s'.fecDown = s.fecDown
  pending : s'.pending = s.pending
  myPeers : s'.myPeers = s.myPeers
  maxFecid : s'.maxFecid = s.maxFecid
  fecList : s'.fecList = s.fecList
  added : Added s.lt s'.lt (s.lt.maxLabel + 1) out

theorem answer_spec (fec : Fec) (peer : IPAddress) (out : List LabelOp) (outPeer : IPAddress)
    (color : ℕ) :
    Outcome (s.answer fec peer out outPeer color) (fun s' ↦ Answered s s' fec.fecid peer out)
      fun fault ↦ fault ≠ .libTable := by
  apply Outcome.bind (install_new fec.fecid peer out outPeer color)
  rintro ⟨s₁, uit⟩ ⟨huit, hframe, hadded⟩
  have huit : uit = ⟨fec.fecid, peer, s.lt.maxLabel + 1⟩ := huit
  subst huit
  simp only [frame, Prod.mk.injEq] at hframe
  obtain ⟨hup, hdown, hpending, hpeers, hmax, hlist⟩ := hframe
  apply (sendToPeer_outcome _ _).post
  rintro s' ⟨hframe', hlt⟩
  simp only [frame, Prod.mk.injEq] at hframe'
  obtain ⟨hup', hdown', hpending', hpeers', hmax', hlist'⟩ := hframe'
  exact {
    fecUp := by rw [hup', hup]
    fecDown := hdown'.trans hdown
    pending := hpending'.trans hpending
    myPeers := hpeers'.trans hpeers
    maxFecid := hmax'.trans hmax
    fecList := hlist'.trans hlist
    added := by
      rw [hlt]
      exact hadded }

theorem Consistent.answered (h : Consistent m fecs dirty s) {fec : Fec} {peer : IPAddress}
    {out : List LabelOp} (hfec : fec ∈ fecs) (hout : s.expected fec = some out)
    (hkey : (fec.fecid, peer) ∉ s.fecUp.map FecBind.key ++ s.pending.map PendingReq.key)
    (ha : Answered s s' fec.fecid peer out) : Consistent m fecs dirty s' := by
  have hbook : ∀ f, s'.expected f = s.expected f := by
    intro f
    apply expected_congr
    · simp only [findPeerSocket, findPeer, ha.myPeers]
    · rw [ha.fecDown]
  have hbounded := h.bounded
  have hold : ∀ b ∈ s.fecUp, b.label ≤ s.lt.maxLabel := fun b hb ↦ hbounded _ (h.label_mem hb).1
  have hm := h.base.2
  constructor
  · exact ⟨h.base.1, by rw [ha.added.maxLabel]; omega⟩
  · rw [LIBTable.ownLabels, ha.added.labels, ha.fecUp, List.filter_append, List.map_append]
    have hnew : (List.filter (fun l ↦ m < l) [s.lt.maxLabel + 1]) = [s.lt.maxLabel + 1] := by
      simp
      omega
    rw [hnew]
    exact h.labels.append_right _
  · rw [ha.fecUp, List.map_append, List.nodup_append]
    refine ⟨h.nodup, by simp, ?_⟩
    intro l hl l' hl'
    obtain ⟨b, hb, rfl⟩ := List.mem_map.mp hl
    simp only [List.map_cons, List.map_nil, List.mem_singleton] at hl'
    have := hold b hb
    omega
  · rw [ha.added.labels, ha.added.maxLabel]
    intro l hl
    rw [List.mem_append, List.mem_singleton] at hl
    obtain hl | rfl := hl
    · have := hbounded l hl
      omega
    · exact le_refl _
  · rw [ha.fecUp, ha.pending, List.map_append, List.append_assoc]
    exact (List.perm_middle.nodup_iff.mpr (List.nodup_cons.mpr ⟨hkey, h.up⟩))
  · rw [ha.fecDown]
    exact h.down
  · intro fecid hused
    unfold Used at hused
    rw [ha.fecUp, ha.fecDown, ha.pending] at hused
    obtain ⟨b, hb, hid⟩ | hrest := hused
    · rw [List.mem_append, List.mem_singleton] at hb
      obtain hb | rfl := hb
      · exact h.known fecid (.inl ⟨b, hb, hid⟩)
      · exact List.mem_map.mpr ⟨fec, hfec, hid⟩
    · exact h.known fecid (.inr hrest)
  · exact h.ids
  · rw [ha.maxFecid]
    exact h.fresh
  · intro b hb f hf hid hclean
    rw [hbook f]
    rw [ha.fecUp, List.mem_append, List.mem_singleton] at hb
    obtain hb | rfl := hb
    · rw [ha.added.other b.label (by have := hold b hb; omega)]
      exact h.forwards b hb f hf hid hclean
    · rw [h.eq_of_fecid hf hfec hid, hout]
      exact ha.added.self hbounded
  · rw [ha.myPeers]
    exact h.peers

theorem Consistent.addPending (h : Consistent m fecs dirty s) {fec : Fec} {peer : IPAddress}
    (hfec : fec ∈ fecs)
    (hkey : (fec.fecid, peer) ∉ s.fecUp.map FecBind.key ++ s.pending.map PendingReq.key) :
    Consistent m fecs dirty { s with pending := s.pending ++ [⟨fec.fecid, peer⟩] } :=
  { h with
    up := by
      rw [List.map_append, ← List.append_assoc]
      exact (List.perm_append_singleton _ _).nodup_iff.mpr (List.nodup_cons.mpr ⟨hkey, h.up⟩)
    known := by
      intro fecid hused
      obtain hup | hdown | ⟨r, hr, hid⟩ := hused
      · exact h.known fecid (.inl hup)
      · exact h.known fecid (.inr (.inl hdown))
      · rw [List.mem_append, List.mem_singleton] at hr
        obtain hr | rfl := hr
        · exact h.known fecid (.inr (.inr ⟨r, hr, hid⟩))
        · exact List.mem_map.mpr ⟨fec, hfec, hid⟩
    forwards := h.forwards }

section

variable (h : Consistent m s.fecList (fun _ ↦ False) s)

include h

theorem Consistent.processLABEL_REQUEST (packet : Packet)
    (hpending : ∀ it ∈ findFecEntry s.fecList packet.addr packet.length,
      ⟨it.fecid, packet.senderAddress⟩ ∉ s.pending) :
    Outcome (s.processLABEL_REQUEST packet) (fun s' ↦ Consistent m s'.fecList (fun _ ↦ False) s')
      fun fault ↦ fault ≠ .libTable := by
  unfold LDP.processLABEL_REQUEST
  cases hfind : findFecEntry s.fecList packet.addr packet.length with
  | none => exact h.sendToPeer _ _
  | some it =>
    have hit := List.mem_of_find?_eq_some hfind
    apply Outcome.ite
    · intro _
      simp
    · intro huit
      have hup : (it.fecid, packet.senderAddress) ∉ s.fecUp.map FecBind.key := by
        apply findBind_eq_none.mp
        simpa using huit
      have hnot : (it.fecid, packet.senderAddress) ∉ s.pending.map PendingReq.key := by
        intro hin
        obtain ⟨r, hr, hkey⟩ := List.mem_map.mp hin
        apply hpending it hfind
        simp only [PendingReq.key, Prod.mk.injEq] at hkey
        rw [← hkey.1, ← hkey.2]
        exact hr
      have hkey : (it.fecid, packet.senderAddress) ∉
          s.fecUp.map FecBind.key ++ s.pending.map PendingReq.key := by
        rw [List.mem_append]
        exact not_or.mpr ⟨hup, hnot⟩
      have hanswer : ∀ out color, s.expected it = some out →
          Outcome (s.answer it packet.senderAddress out it.nextHop color)
            (fun s' ↦ Consistent m s'.fecList (fun _ ↦ False) s')
            fun fault ↦ fault ≠ .libTable := by
        intro out color hout
        apply (answer_spec it packet.senderAddress out it.nextHop color).post
        intro s' ha
        rw [ha.fecList]
        exact h.answered hit hout hkey ha
      unfold expected at hanswer
      apply Outcome.ite
      · intro _
        simp
      · intro _
        apply Outcome.ite
        · intro her
          apply hanswer
          rw [Bool.not_eq_true'] at her
          simp [her]
        · intro her
          have hconnected : s.findPeerSocket it.nextHop = true := by simpa using her
          cases hdit : findBind s.fecDown it.fecid it.nextHop with
          | some dit =>
            apply hanswer
            simp [hconnected, hdit]
          | none =>
            apply Outcome.bind (findInterfaceFromPeerAddr_outcome packet.senderAddress)
            intro _ _
            apply Outcome.bind (findInterfaceFromPeerAddr_outcome it.nextHop)
            intro _ _
            exact h.addPending hit hkey

theorem Consistent.removeBinding {b : FecBind} (hb : b ∈ s.fecUp) :
    Outcome (do
        let lt ← s.lt.removeLibEntry b.label
        return { s with lt, fecUp := s.fecUp.erase b })
      (fun s' ↦ Consistent m s'.fecList (fun _ ↦ False) s') fun fault ↦ fault ≠ .libTable := by
  obtain ⟨hmem, hm⟩ := h.label_mem hb
  have hremove := (LIBTable.removeLibEntry_spec hmem).mono (fun _ h ↦ h)
    (fun fault (hfalse : False) ↦ (hfalse.elim : fault ≠ .libTable))
  apply Outcome.bind hremove
  rintro lt ⟨hlabels, hmax, hother⟩
  have hsub : (s.fecUp.erase b).Sublist s.fecUp := List.erase_sublist
  have hperm : (s.fecUp.map FecBind.label).Perm (b.label :: (s.fecUp.erase b).map FecBind.label) :=
    (List.perm_cons_erase hb).map _
  have hnodup := hperm.nodup_iff.mp h.nodup
  rw [List.nodup_cons] at hnodup
  constructor
  · rw [hmax]
    exact h.base
  · rw [LIBTable.ownLabels, hlabels, filter_erase_of_pos (by simpa using hm)]
    have herase := (h.labels.trans hperm).erase b.label
    rw [List.erase_cons_head] at herase
    exact herase
  · exact hnodup.2
  · rw [hlabels, hmax]
    intro l hl
    exact h.bounded l (List.mem_of_mem_erase hl)
  · exact ((hsub.map _).append (List.Sublist.refl _)).nodup h.up
  · exact h.down
  · intro fecid hused
    obtain ⟨c, hc, hid⟩ | hrest := hused
    · exact h.known fecid (.inl ⟨c, hsub.subset hc, hid⟩)
    · exact h.known fecid (.inr hrest)
  · exact h.ids
  · exact h.fresh
  · intro c hc f hf hid hclean
    have hne : c.label ≠ b.label := by
      intro heq
      exact hnodup.1 (heq ▸ List.mem_map_of_mem hc)
    rw [hother c.label hne]
    exact h.forwards c (hsub.subset hc) f hf hid hclean
  · exact h.peers

theorem Consistent.processLABEL_RELEASE (packet : Packet) :
    Outcome (s.processLABEL_RELEASE packet) (fun s' ↦ Consistent m s'.fecList (fun _ ↦ False) s')
      fun fault ↦ fault ≠ .libTable := by
  apply Outcome.ite
  · intro _
    simp
  · intro _
    cases findFecEntry s.fecList packet.addr packet.length with
    | none => exact h
    | some it =>
      dsimp only
      cases huit : findBind s.fecUp it.fecid packet.senderAddress with
      | none => exact h
      | some uit =>
        apply Outcome.ite
        · intro _
          exact h
        · intro _
          exact h.removeBinding (findBind_eq_some huit).1

end

theorem findBind_erase_of_ne {fecid : ℕ} {peer : IPAddress} {dit : FecBind}
    (hne : ¬ (dit.fecid = fecid ∧ dit.peer = peer)) (ds : List FecBind) :
    findBind (ds.erase dit) fecid peer = findBind ds fecid peer := by
  unfold findBind
  induction ds with
  | nil => rfl
  | cons d ds ih =>
    by_cases hd : d = dit
    · subst hd
      rw [List.erase_cons_head, List.find?_cons_of_neg (by simpa using hne)]
    · rw [List.erase_cons_tail (by simpa using hd)]
      simp only [List.find?_cons, ih]

theorem Consistent.processLABEL_WITHDRAW (h : Consistent m s.fecList (fun _ ↦ False) s)
    (packet : Packet)
    (hbound : ∀ it ∈ findFecEntry s.fecList packet.addr packet.length,
      packet.senderAddress = it.nextHop → s.findPeerSocket it.nextHop = true →
        ∀ dit ∈ findBind s.fecDown it.fecid packet.senderAddress, packet.label = dit.label →
          ∀ b ∈ s.fecUp, b.fecid ≠ it.fecid) :
    Outcome (s.processLABEL_WITHDRAW packet) (fun s' ↦ Consistent m s'.fecList (fun _ ↦ False) s')
      fun fault ↦ fault ≠ .libTable := by
  apply Outcome.ite
  · intro _
    simp
  · intro _
    cases hfind : findFecEntry s.fecList packet.addr packet.length with
    | none => exact h
    | some it =>
      have hit := List.mem_of_find?_eq_some hfind
      dsimp only
      cases hdit : findBind s.fecDown it.fecid packet.senderAddress with
      | none => exact h
      | some dit =>
        apply Outcome.ite
        · intro _
          exact h
        · intro hlabel
          have hlabel := not_not.mp hlabel
          obtain ⟨hmem, hid, hpeer⟩ := findBind_eq_some hdit
          have hsub : (s.fecDown.erase dit).Sublist s.fecDown := List.erase_sublist
          have h₁ : Consistent m s.fecList (fun f ↦ f = it)
              { s with fecDown := s.fecDown.erase dit } := by
            refine h.setPeers rfl rfl rfl rfl (fun d hd ↦ .inl (hsub.subset hd))
              ((hsub.map _).nodup h.down) h.peers ?_
            intro f hf hne _
            refine expected_congr rfl (findBind_erase_of_ne ?_ s.fecDown)
            rintro ⟨hfid, -⟩
            exact hne (h.eq_of_fecid hf hit (hfid.symm.trans hid))
          have hsteady : { s with fecDown := s.fecDown.erase dit }.Steady it := by
            intro hnone b hb hbid
            by_cases hhop : packet.senderAddress = it.nextHop
            · have hconnected : s.findPeerSocket it.nextHop = true := by
                by_contra hnot
                have hpop : { s with fecDown := s.fecDown.erase dit }.expected it = some popLabel :=
                  if_neg hnot
                rw [hpop] at hnone
                cases hnone
              exact hbound it hfind hhop hconnected dit hdit hlabel b hb hbid
            · have hsame : { s with fecDown := s.fecDown.erase dit }.expected it = s.expected it := by
                refine expected_congr rfl (findBind_erase_of_ne ?_ s.fecDown)
                rintro ⟨-, hdhop⟩
                exact hhop (hpeer.symm.trans hdhop)
              have hsome := h.expected_isSome hb hit hbid.symm not_false
              rw [← hsame, hnone] at hsome
              cases hsome
          apply Outcome.bind (sendToPeer_outcome packet.senderAddress
            { packet with type := .labelRelease })
          rintro s₁ ⟨hframe, hlt⟩
          have h₂ := h₁.of_frame hframe hlt
          apply (h₂.updateFecListEntry (fun f hf hfid ↦ h.eq_of_fecid hf hit hfid)
            (hsteady.of_book (book_of_frame hframe))).post
          rintro s' ⟨hframe', h'⟩
          have hlist : s'.fecList = s.fecList := by
            have hboth := hframe'.trans hframe
            simp only [frame, Prod.mk.injEq] at hboth
            exact hboth.2.2.2.2.2
          rw [hlist]
          apply h'.mono
          rintro f _ ⟨heq, hne⟩
          exact hne heq

/-- The requests that are left when some have been answered. -/
theorem Consistent.setPending (h : Consistent m fecs dirty s) {pending : List PendingReq}
    (hsub : pending.Sublist s.pending) : Consistent m fecs dirty { s with pending } :=
  { h with
    up := ((List.Sublist.refl _).append (hsub.map _)).nodup h.up
    known := by
      intro fecid hused
      obtain hup | hdown | ⟨r, hr, hid⟩ := hused
      · exact h.known fecid (.inl hup)
      · exact h.known fecid (.inr (.inl hdown))
      · exact h.known fecid (.inr (.inr ⟨r, hsub.subset hr, hid⟩))
    forwards := h.forwards }

/-- Pending requests are answered with the label from the next hop. The requests in `kept` have been
passed over. -/
theorem Consistent.answerPending {it : Fec} {label : ℤ} {fromIP : IPAddress} (hit : it ∈ fecs)
    (ps kept : List PendingReq) (h : Consistent m fecs dirty { s with pending := kept ++ ps })
    (hout : (∃ r ∈ ps, r.fecid = it.fecid) → s.expected it = some (swapLabel label)) :
    Outcome (answerPending it label fromIP s ps)
      (fun r ↦ Consistent m fecs dirty { r.1 with pending := kept ++ r.2 } ∧
        r.1.fecList = s.fecList)
      fun fault ↦ fault ≠ .libTable := by
  induction ps generalizing s kept with
  | nil => exact ⟨h, rfl⟩
  | cons pit rest ih =>
    apply Outcome.ite
    · intro _
      have h₁ : Consistent m fecs dirty { s with pending := (kept ++ [pit]) ++ rest } := by
        rw [List.append_assoc]
        exact h
      apply Outcome.bind (ih (kept ++ [pit]) h₁ fun ⟨r, hr, hid⟩ ↦ hout ⟨r, by simp [hr], hid⟩)
      rintro ⟨s₁, rest₁⟩ ⟨h₂, hlist⟩
      rw [List.append_assoc] at h₂
      exact ⟨h₂, hlist⟩
    · intro hid
      have hid := not_not.mp hid
      have hexpected := hout ⟨pit, by simp, hid⟩
      have hsub : (kept ++ rest).Sublist (kept ++ pit :: rest) :=
        (List.Sublist.refl _).append (List.sublist_cons_self _ _)
      have h₁ : Consistent m fecs dirty { s with pending := kept ++ rest } := h.setPending hsub
      have hkey : (it.fecid, pit.peer) ∉
          s.fecUp.map FecBind.key ++ (kept ++ rest).map PendingReq.key := by
        have hup := h.up
        have hperm : (s.fecUp.map FecBind.key ++ (kept ++ pit :: rest).map PendingReq.key).Perm
            (pit.key :: (s.fecUp.map FecBind.key ++ (kept ++ rest).map PendingReq.key)) := by
          rw [List.map_append, List.map_cons, ← List.append_assoc, List.map_append,
            ← List.append_assoc]
          exact List.perm_middle
        have hnodup := hperm.nodup_iff.mp hup
        rw [List.nodup_cons] at hnodup
        have hpit : pit.key = (it.fecid, pit.peer) := by rw [PendingReq.key, hid]
        rw [← hpit]
        exact hnodup.1
      apply Outcome.bind (answer_spec it pit.peer (swapLabel label) fromIP LDP_USER_TRAFFIC)
      intro s₁ ha
      have h₂ : Consistent m fecs dirty { s₁ with pending := kept ++ rest } := by
        apply h₁.answered hit hexpected hkey
        exact ⟨ha.fecUp, ha.fecDown, rfl, ha.myPeers, ha.maxFecid, ha.fecList, ha.added⟩
      apply (ih kept h₂ ?_).post
      · rintro r ⟨h', hlist⟩
        exact ⟨h', hlist.trans ha.fecList⟩
      · rintro -
        rw [← hexpected]
        apply expected_congr
        · simp only [findPeerSocket, findPeer, ha.myPeers]
        · rw [ha.fecDown]

/-- A binding from downstream does not change what an entry does that has something to do. -/
theorem expected_append {fec : Fec} (h : (s.expected fec).isSome) (newItem : FecBind) :
    { s with fecDown := s.fecDown ++ [newItem] }.expected fec = s.expected fec := by
  have hsocket : { s with fecDown := s.fecDown ++ [newItem] }.findPeerSocket fec.nextHop =
      s.findPeerSocket fec.nextHop := rfl
  unfold expected at h ⊢
  rw [hsocket]
  split
  · rename_i hconnected
    rw [if_pos hconnected, Option.isSome_map] at h
    obtain ⟨dit, hdit⟩ := Option.isSome_iff_exists.mp h
    have hfound : findBind (s.fecDown ++ [newItem]) fec.fecid fec.nextHop = some dit := by
      rw [findBind, List.find?_append, show s.fecDown.find? _ = some dit from hdit]
      rfl
    rw [hdit]
    exact congrArg _ hfound
  · rfl

section

variable (h : Consistent m s.fecList (fun _ ↦ False) s)

include h

theorem Consistent.processLABEL_MAPPING (packet : Packet)
    (hnext : ∀ it ∈ findFecEntry s.fecList packet.addr packet.length,
      (∃ r ∈ s.pending, r.fecid = it.fecid) →
        packet.senderAddress = it.nextHop ∧ s.findPeerSocket it.nextHop = true) :
    Outcome (s.processLABEL_MAPPING packet) (fun s' ↦ Consistent m s'.fecList (fun _ ↦ False) s')
      fun fault ↦ fault ≠ .libTable := by
  apply Outcome.ite
  · intro _
    simp
  · intro _
    cases hfind : findFecEntry s.fecList packet.addr packet.length with
    | none => simp
    | some it =>
      have hit := List.mem_of_find?_eq_some hfind
      apply Outcome.ite
      · intro _
        simp
      · intro hdit
        have hnone : findBind s.fecDown it.fecid packet.senderAddress = none := by
          simpa using hdit
        generalize hnew : (⟨it.fecid, packet.senderAddress, packet.label⟩ : FecBind) = newItem
        have hkeys : ((s.fecDown ++ [newItem]).map FecBind.key).Nodup := by
          have hkey : newItem.key ∉ s.fecDown.map FecBind.key := by
            rw [← hnew]
            exact findBind_eq_none.mp hnone
          rw [List.map_append]
          exact (List.perm_append_singleton _ _).nodup_iff.mpr
            (List.nodup_cons.mpr ⟨hkey, h.down⟩)
        have h₁ : Consistent m s.fecList (fun _ ↦ False)
            { s with fecDown := s.fecDown ++ [newItem] } := by
          refine h.setPeers rfl rfl rfl rfl ?_ hkeys h.peers ?_
          · intro d hd
            rw [List.mem_append, List.mem_singleton] at hd
            obtain hd | rfl := hd
            · exact .inl hd
            · rw [← hnew]
              exact .inr (List.mem_map_of_mem hit)
          · intro f _ _ hsome
            exact expected_append hsome newItem
        have hout : (∃ r ∈ s.pending, r.fecid = it.fecid) →
            { s with fecDown := s.fecDown ++ [newItem] }.expected it =
              some (swapLabel packet.label) := by
          intro hwaiting
          obtain ⟨hhop, hconnected⟩ := hnext it hfind hwaiting
          rw [hhop] at hnone
          have hfound : findBind (s.fecDown ++ [newItem]) it.fecid it.nextHop = some newItem := by
            rw [findBind, List.find?_append, show s.fecDown.find? _ = none from hnone, ← hnew, hhop]
            simp
          have hbranch : { s with fecDown := s.fecDown ++ [newItem] }.expected it =
              (findBind (s.fecDown ++ [newItem]) it.fecid it.nextHop).map
                fun dit ↦ swapLabel dit.label := if_pos hconnected
          rw [hbranch, hfound, ← hnew]
          rfl
        apply Outcome.bind (Consistent.answerPending hit s.pending [] h₁ hout)
        rintro ⟨s₂, pending⟩ ⟨h₂, hlist⟩
        have hlist : s₂.fecList = s.fecList := hlist
        rw [← hlist] at h₂
        exact h₂

/-! ## Runs -/

/-- A request is not repeated while it is pending, pending requests are answered by the next hop, and
the next hop does not withdraw a label that upstream bindings depend on. -/
def TypeOrderly (s : LDP) (packet : Packet) : PacketType → Prop
  | .labelRequest => ∀ it ∈ findFecEntry s.fecList packet.addr packet.length,
      ⟨it.fecid, packet.senderAddress⟩ ∉ s.pending
  | .labelMapping => ∀ it ∈ findFecEntry s.fecList packet.addr packet.length,
      (∃ r ∈ s.pending, r.fecid = it.fecid) →
        packet.senderAddress = it.nextHop ∧ s.findPeerSocket it.nextHop = true
  | .labelWithdraw => ∀ it ∈ findFecEntry s.fecList packet.addr packet.length,
      packet.senderAddress = it.nextHop → s.findPeerSocket it.nextHop = true →
        ∀ dit ∈ findBind s.fecDown it.fecid packet.senderAddress, packet.label = dit.label →
          ∀ b ∈ s.fecUp, b.fecid ≠ it.fecid
  | _ => True

def PacketOrderly (s : LDP) (packet : Packet) : Prop := s.TypeOrderly packet packet.type

/-- A FEC with upstream bindings does not get a peer without mapping as its next hop, and FECs that
are in use are not dropped. -/
def RoutesOrderly (s : LDP) (routing : Routing) : Prop :=
  (∀ re ∈ routing.routes, ∀ f ∈ s.fecList, Fec.is re.host re.netmaskLength f = true →
      f.nextHop ≠ re.nextHop → s.Steady { f with nextHop := re.nextHop }) ∧
    ∀ f ∈ { s with routing }.deprecated, ¬ s.Used f.fecid

/-- The event does not make the router forget a LIB entry or a binding. -/
def Orderly (s : LDP) : Event → Prop
  | .helloTimeout i => ∀ peer ∈ s.myPeers[i]?, ∀ b ∈ s.fecUp, b.peer ≠ peer.peerIP
  | .established i => ∀ peer ∈ s.myPeers[i]?,
      (∀ socket ∈ peer.socket, socket.yourPtr = i) ∧ s.Unbound peer.peerIP
  | .incoming remoteAddr => s.Unbound remoteAddr
  | .data _ packet => s.PacketOrderly packet
  | .routesChanged routing => s.RoutesOrderly routing
  | _ => True

instance (s : LDP) (nextHop : IPAddress) : Decidable (s.Unbound nextHop) :=
  inferInstanceAs (Decidable (∀ f ∈ s.fecList, f.nextHop = nextHop →
    findBind s.fecDown f.fecid nextHop = none → ∀ b ∈ s.fecUp, b.fecid ≠ f.fecid))

instance (s : LDP) (fec : Fec) : Decidable (s.Steady fec) :=
  inferInstanceAs (Decidable (s.expected fec = none → ∀ b ∈ s.fecUp, b.fecid ≠ fec.fecid))

instance (s : LDP) (fecid : ℕ) : Decidable (s.Used fecid) :=
  inferInstanceAs (Decidable ((∃ b ∈ s.fecUp, b.fecid = fecid) ∨
    (∃ b ∈ s.fecDown, b.fecid = fecid) ∨ ∃ r ∈ s.pending, r.fecid = fecid))

instance (s : LDP) (packet : Packet) : ∀ type, Decidable (s.TypeOrderly packet type)
  | .labelRequest => inferInstanceAs (Decidable
      (∀ it ∈ findFecEntry s.fecList packet.addr packet.length, _))
  | .labelMapping => inferInstanceAs (Decidable
      (∀ it ∈ findFecEntry s.fecList packet.addr packet.length, _ → _))
  | .labelWithdraw => inferInstanceAs (Decidable
      (∀ it ∈ findFecEntry s.fecList packet.addr packet.length, _ → _ →
        ∀ dit ∈ findBind s.fecDown it.fecid packet.senderAddress, _ → ∀ b ∈ s.fecUp, _))
  | .labelRelease => inferInstanceAs (Decidable True)
  | .notification _ => inferInstanceAs (Decidable True)
  | .other => inferInstanceAs (Decidable True)

instance (s : LDP) (packet : Packet) : Decidable (s.PacketOrderly packet) :=
  inferInstanceAs (Decidable (s.TypeOrderly packet packet.type))

instance (s : LDP) (routing : Routing) : Decidable (s.RoutesOrderly routing) :=
  inferInstanceAs (Decidable (_ ∧ _))

instance (s : LDP) : ∀ event, Decidable (s.Orderly event)
  | .hello _ _ => inferInstanceAs (Decidable True)
  | .helloTimeout i => inferInstanceAs (Decidable (∀ peer ∈ s.myPeers[i]?,
      ∀ b ∈ s.fecUp, b.peer ≠ peer.peerIP))
  | .established i => inferInstanceAs (Decidable (∀ peer ∈ s.myPeers[i]?,
      (∀ socket ∈ peer.socket, socket.yourPtr = i) ∧ s.Unbound peer.peerIP))
  | .incoming remoteAddr => inferInstanceAs (Decidable (s.Unbound remoteAddr))
  | .data _ packet => inferInstanceAs (Decidable (s.PacketOrderly packet))
  | .closed _ => inferInstanceAs (Decidable True)
  | .retry _ => inferInstanceAs (Decidable True)
  | .routesChanged routing => inferInstanceAs (Decidable (s.RoutesOrderly routing))

theorem Consistent.processLDPPacketFromTCP {packet : Packet} (horderly : s.PacketOrderly packet) :
    Outcome (s.processLDPPacketFromTCP packet)
      (fun s' ↦ Consistent m s'.fecList (fun _ ↦ False) s') fun fault ↦ fault ≠ .libTable := by
  unfold LDP.processLDPPacketFromTCP
  unfold PacketOrderly at horderly
  cases htype : packet.type with
  | labelMapping =>
    rw [htype] at horderly
    exact h.processLABEL_MAPPING packet horderly
  | labelRequest =>
    rw [htype] at horderly
    exact h.processLABEL_REQUEST packet horderly
  | labelWithdraw =>
    rw [htype] at horderly
    exact h.processLABEL_WITHDRAW packet horderly
  | labelRelease => exact h.processLABEL_RELEASE packet
  | notification noRoute =>
    cases noRoute with
    | true => exact h.processNOTIFICATION packet false
    | false => simp
  | other => simp

theorem Consistent.handle {event : Event} (horderly : s.Orderly event) :
    Outcome (s.handle event) (fun s' ↦ Consistent m s'.fecList (fun _ ↦ False) s')
      fun fault ↦ fault ≠ .libTable := by
  cases event with
  | hello sender linkInterface => exact h.processLDPHello sender linkInterface
  | helloTimeout i => exact h.processHelloTimeout i horderly
  | established i =>
    exact h.connectionEstablished i (fun peer hpeer ↦ (horderly peer hpeer).1)
      fun peer hpeer ↦ (horderly peer hpeer).2
  | incoming remoteAddr => exact h.incomingConnection remoteAddr horderly
  | data i packet =>
    simp only [LDP.handle, socketDataArrived]
    cases s.myPeers[i]? with
    | none => exact h
    | some peer =>
      dsimp only
      cases peer.socket with
      | none => exact h
      | some socket =>
        apply Outcome.ite
        · intro _
          exact h.processLDPPacketFromTCP horderly
        · intro _
          simp
  | closed i => simp [LDP.handle]
  | retry k =>
    simp only [LDP.handle]
    cases s.retries[k]? with
    | none => exact h
    | some packet =>
      have h₁ : Consistent m s.fecList (fun _ ↦ False)
          { s with retries := s.retries.eraseIdx k } := h.of_frame rfl rfl
      exact h₁.processNOTIFICATION packet true
  | routesChanged routing =>
    have h₁ : Consistent m s.fecList (fun _ ↦ False) { s with routing } := h.of_frame rfl rfl
    have hsteady : ∀ re ∈ routing.routes, ∀ f ∈ s.fecList,
        Fec.is re.host re.netmaskLength f = true → f.nextHop ≠ re.nextHop →
          { s with routing }.Steady { f with nextHop := re.nextHop } :=
      fun re hre f hf his hne ↦ (horderly.1 re hre f hf his hne).of_book rfl
    exact (Consistent.rebuildFecList h₁ hsteady horderly.2).post fun s' h' ↦ h'.1

end

/-- The router has started with a LIB table whose labels are not above `m`. -/
def Started (m : ℤ) (s : LDP) : Prop :=
  ∃ routerId fecSort lt routing, lt.maxLabel = m ∧ 0 ≤ m ∧ (∀ l ∈ lt.labels, l ≤ m) ∧
    (fresh routerId fecSort lt routing).rebuildFecList = .ok s

theorem foldl_strike_nil (routes : List Route) : routes.foldl strike [] = [] := by
  induction routes with
  | nil => rfl
  | cons re rest ih =>
    have hnil : strike [] re = [] := by simp [strike]
    rw [List.foldl_cons, hnil, ih]

theorem foldl_strikeAddress_nil (addrs : List IPAddress) : addrs.foldl strikeAddress [] = [] := by
  induction addrs with
  | nil => rfl
  | cons addr rest ih => exact ih

theorem Started.consistent (h : Started m s) : Consistent m s.fecList (fun _ ↦ False) s := by
  obtain ⟨routerId, fecSort, lt, routing, hmax, hm, hlabels, hs⟩ := h
  have hown : lt.ownLabels m = [] := by
    rw [LIBTable.ownLabels, List.filter_eq_nil_iff]
    intro l hl
    simpa using hlabels l hl
  have hfresh : Consistent m (fresh routerId fecSort lt routing).fecList (fun _ ↦ False)
      (fresh routerId fecSort lt routing) := by
    constructor
    · exact ⟨hm, hmax.symm.le⟩
    · simp [fresh, hown]
    · simp [fresh]
    · intro l hl
      rw [fresh, hmax]
      exact hlabels l hl
    all_goals simp [fresh, Used]
  have hdeprecated : (fresh routerId fecSort lt routing).deprecated = [] := by
    rw [deprecated, fresh, foldl_strike_nil, foldl_strikeAddress_nil]
  have hbuild := hfresh.rebuildFecList (fun re _ f hf ↦ by cases hf)
    (fun f hf ↦ by rw [hdeprecated] at hf; cases hf)
  exact (hbuild.of_eq_ok hs).1

/-- The LIB table has exactly the entries of the upstream bindings, each bound FEC is in the list of
FECs, and each entry forwards to the FEC's next hop. -/
structure BindingsMatch (m : ℤ) (s : LDP) : Prop where
  entries : (s.lt.ownLabels m).Perm (s.fecUp.map FecBind.label)
  distinct : (s.fecUp.map FecBind.label).Nodup
  up : (s.fecUp.map FecBind.key).Nodup
  down : (s.fecDown.map FecBind.key).Nodup
  known : ∀ fecid, s.Used fecid → ∃ f ∈ s.fecList, f.fecid = fecid
  forwards : ∀ b ∈ s.fecUp, ∃ f ∈ s.fecList, f.fecid = b.fecid ∧
    if s.findPeerSocket f.nextHop then
      ∃ d ∈ s.fecDown, d.fecid = f.fecid ∧ d.peer = f.nextHop ∧
        s.lt.out? b.label = some (swapLabel d.label)
    else s.lt.out? b.label = some popLabel

theorem Consistent.bindingsMatch (h : Consistent m s.fecList (fun _ ↦ False) s) :
    BindingsMatch m s where
  entries := h.labels
  distinct := h.nodup
  up := (List.nodup_append.mp h.up).1
  down := h.down
  known := fun fecid hused ↦ List.mem_map.mp (h.known fecid hused)
  forwards := by
    intro b hb
    obtain ⟨f, hf, hid⟩ := List.mem_map.mp (h.known b.fecid (.inl ⟨b, hb, rfl⟩))
    refine ⟨f, hf, hid, ?_⟩
    have hout := h.forwards b hb f hf hid not_false
    have hsome := h.expected_isSome hb hf hid not_false
    unfold expected at hout hsome
    split
    · rename_i hconnected
      rw [if_pos hconnected] at hout hsome
      rw [Option.isSome_map] at hsome
      obtain ⟨d, hd⟩ := Option.isSome_iff_exists.mp hsome
      obtain ⟨hmem, hdid, hdpeer⟩ := findBind_eq_some hd
      refine ⟨d, hmem, hdid, hdpeer, ?_⟩
      rw [hout, hd]
      rfl
    · rename_i hconnected
      rw [if_neg hconnected] at hout
      exact hout

/-- In every orderly run the bindings match the LIB table, and its assertions cannot fail next. -/
theorem bindings_match_lib_table (h : Reachable (Started m) Orderly handle s) :
    BindingsMatch m s ∧ ∀ event, s.Orderly event → s.handle event ≠ .error .libTable := by
  have hstart : ∀ s, Started m s → Consistent m s.fecList (fun _ ↦ False) s :=
    fun s hs ↦ hs.consistent
  obtain ⟨hconsistent, hnext⟩ := h.outcome hstart fun s event hs horderly ↦ hs.handle horderly
  constructor
  · exact hconsistent.bindingsMatch
  · intro event horderly herror
    exact (hnext event horderly).of_eq_error herror rfl

instance : DecidableRel noShorter := fun a b ↦ inferInstanceAs (Decidable (b.length ≤ a.length))

/-- FECs of the same length keep their order. -/
def stableSort : FecSort where
  sort := List.insertionSort noShorter
  perm := List.perm_insertionSort noShorter
  sorted fecs := by
    have htotal : Std.Total noShorter := ⟨fun a b ↦ le_total b.length a.length⟩
    have htrans : IsTrans Fec noShorter := ⟨fun _ _ _ hab hbc ↦ le_trans hbc hab⟩
    exact List.pairwise_insertionSort noShorter fecs

/-- A router with a route to one network, over a gateway that does not run LDP. -/
def edge : LDP := fresh 1 stableSort ⟨0, []⟩ ⟨[⟨0x0a000000, 8, false, 9⟩], [1], fun _ ↦ some "ppp0"⟩

/-- A peer is found and asks for a label for the network. -/
def labelAsked : List Event :=
  [.hello 2 "ppp1", .established 0, .data 0 ⟨.labelRequest, 0x0a000000, 8, 0, 2⟩]

theorem label_is_bound : ∃ s₀ s, edge.rebuildFecList = .ok s₀ ∧ run handle s₀ labelAsked = .ok s ∧
    s.fecUp = [⟨1, 2, 1⟩] ∧ BindingsMatch 0 s := by
  have hcheck : (match edge.rebuildFecList with
      | .ok s₀ => (match run handle s₀ labelAsked with
        | .ok s => decide (admits Orderly handle s₀ labelAsked = true ∧ s.fecUp = [⟨1, 2, 1⟩])
        | .error _ => false)
      | .error _ => false) = true := by decide +kernel
  cases hstart : edge.rebuildFecList with
  | error e =>
    rw [hstart] at hcheck
    cases hcheck
  | ok s₀ =>
    rw [hstart] at hcheck
    dsimp only at hcheck
    cases hrun : run handle s₀ labelAsked with
    | error e =>
      rw [hrun] at hcheck
      cases hcheck
    | ok s =>
      rw [hrun] at hcheck
      obtain ⟨hadmits, hup⟩ := of_decide_eq_true hcheck
      have hs₀ : Started 0 s₀ := ⟨1, stableSort, ⟨0, []⟩, _, rfl, le_refl 0, by simp [LIBTable.labels], hstart⟩
      have hreach : Reachable (Started 0) Orderly handle s :=
        Reachable.of_run (.start hs₀) labelAsked hadmits hrun
      exact ⟨s₀, s, rfl, hrun, hup, (bindings_match_lib_table hreach).1⟩

/-- The peer is lost with its binding, but the LIB entry stays. -/
theorem lib_entry_left_behind : ∃ s, Reachable (Started 0) (fun _ _ ↦ True) handle s ∧
    s.fecUp = [] ∧ s.lt.ownLabels 0 = [1] ∧ ¬ BindingsMatch 0 s := by
  have hcheck : (match edge.rebuildFecList with
      | .ok s₀ => (match run handle s₀ (labelAsked ++ [.helloTimeout 0]) with
        | .ok s => decide (admits (fun _ _ ↦ True) handle s₀ (labelAsked ++ [.helloTimeout 0]) = true ∧
            s.fecUp = [] ∧ s.lt.ownLabels 0 = [1])
        | .error _ => false)
      | .error _ => false) = true := by decide +kernel
  cases hstart : edge.rebuildFecList with
  | error e =>
    rw [hstart] at hcheck
    cases hcheck
  | ok s₀ =>
    rw [hstart] at hcheck
    dsimp only at hcheck
    cases hrun : run handle s₀ (labelAsked ++ [.helloTimeout 0]) with
    | error e =>
      rw [hrun] at hcheck
      cases hcheck
    | ok s =>
      rw [hrun] at hcheck
      obtain ⟨hadmits, hup, hlabels⟩ := of_decide_eq_true hcheck
      have hs₀ : Started 0 s₀ := ⟨1, stableSort, ⟨0, []⟩, _, rfl, le_refl 0, by simp [LIBTable.labels], hstart⟩
      refine ⟨s, ?_, hup, hlabels, ?_⟩
      · exact Reachable.of_run (.start hs₀) (labelAsked ++ [.helloTimeout 0]) hadmits hrun
      · intro hmatch
        have hperm := hmatch.entries
        rw [hup, hlabels] at hperm
        have := hperm.length_eq
        cases this

end LDP

end InetManet
