import InetManet.TED.LinkStateRouting

/-!
# Flooding does not depend on the order

However messages are delayed, lost, duplicated and reordered, the database of a router holds for each
link the newest announcement that the router has received or made. What it holds is therefore a
function of the set of announcements, and none of them is accepted twice.
-/

namespace InetManet.TED

open TransitionSystem

/-! ## The order of announcements -/

namespace TELinkStateInfo

variable {x y z : TELinkStateInfo}

theorem sameMessage_iff : x.sameMessage y = true ↔
    x.sourceId = y.sourceId ∧ x.messageId = y.messageId ∧ x.timestamp = y.timestamp := by
  simp [sameMessage, and_assoc]

theorem sameLink_iff : x.sameLink y = true ↔ x.advrouter = y.advrouter ∧ x.linkid = y.linkid := by
  simp [sameLink]

/-- The key of a link. -/
def key (x : TELinkStateInfo) : IPAddress × IPAddress := (x.advrouter, x.linkid)

theorem sameLink_iff_key : x.sameLink y = true ↔ x.key = y.key := by
  rw [sameLink_iff, key, key, Prod.mk.injEq]

theorem isOlder_iff : x.isOlder y = true ↔
    x.timestamp < y.timestamp ∨ x.timestamp = y.timestamp ∧ x.messageId < y.messageId := by
  simp [isOlder]

theorem sameLink_symm (h : x.sameLink y = true) : y.sameLink x = true := by
  rw [sameLink_iff] at h ⊢
  exact ⟨h.1.symm, h.2.symm⟩

theorem sameLink_trans (h : x.sameLink y = true) (h' : y.sameLink z = true) :
    x.sameLink z = true := by
  rw [sameLink_iff] at h h' ⊢
  exact ⟨h.1.trans h'.1, h.2.trans h'.2⟩

theorem isOlder_irrefl (x : TELinkStateInfo) : ¬ x.isOlder x = true := by
  rw [isOlder_iff]
  omega

theorem isOlder_asymm (h : x.isOlder y = true) : ¬ y.isOlder x = true := by
  rw [isOlder_iff] at h ⊢
  omega

theorem isOlder_trans (h : x.isOlder y = true) (h' : y.isOlder z = true) : x.isOlder z = true := by
  rw [isOlder_iff] at h h' ⊢
  omega

end TELinkStateInfo

open TELinkStateInfo

/-- The announcements of a network: a triple stands for one announcement, the addresses of a link do
not change, and the source is the advertising router. -/
structure Announcements (A : TELinkStateInfo → Prop) : Prop where
  unique : ∀ x y, A x → A y → x.sameMessage y = true → x = y
  addresses : ∀ x y, A x → A y → x.sameLink y = true →
    x.localAddr = y.localAddr ∧ x.remoteAddr = y.remoteAddr
  source : ∀ x, A x → x.sourceId = x.advrouter.toNat

namespace Announcements

variable {A : TELinkStateInfo → Prop} {x y : TELinkStateInfo}

/-- Two announcements of a link are the same, or one of them is older. -/
theorem total (h : Announcements A) (hx : A x) (hy : A y) (hlink : x.sameLink y = true)
    (hold : ¬ y.isOlder x = true) : x = y ∨ x.isOlder y = true := by
  rw [isOlder_iff] at hold ⊢
  by_cases heq : x.timestamp = y.timestamp ∧ x.messageId = y.messageId
  · left
    apply h.unique x y hx hy
    rw [sameMessage_iff, h.source x hx, h.source y hy, (sameLink_iff.mp hlink).1]
    exact ⟨rfl, heq.2, heq.1⟩
  · right
    omega

/-- Copying the information of another announcement of the link gives that announcement. -/
theorem copyInfo (h : Announcements A) (hx : A x) (hy : A y) (hlink : x.sameLink y = true) :
    x.copyInfo y = y := by
  obtain ⟨hlocal, hremote⟩ := h.addresses x y hx hy hlink
  obtain ⟨hadv, hid⟩ := sameLink_iff.mp hlink
  obtain ⟨_, _, _, _, _, _, _, _, _, _, _⟩ := x
  obtain ⟨_, _, _, _, _, _, _, _, _, _, _⟩ := y
  dsimp only at hlocal hremote hadv hid
  subst hlocal hremote hadv hid
  rfl

end Announcements

/-! ## One router -/

/-- `ted` holds the newest of the announcements in `seen`, and `forwarded` are some of those. -/
structure Newest (ted seen forwarded : List TELinkStateInfo) : Prop where
  unique : (ted.map key).Nodup
  newest : ∀ x ∈ ted, x ∈ seen ∧ ∀ y ∈ seen, y.sameLink x = true → y = x ∨ y.isOlder x = true
  known : ∀ x ∈ seen, ∃ y ∈ ted, y.sameLink x = true
  once : forwarded.Nodup
  subset : ∀ x ∈ forwarded, x ∈ seen

section Validity

variable {link : TELinkStateInfo} {ted : List TELinkStateInfo} {k : ℕ}

theorem checkLinkValidity_unknown (h : checkLinkValidity link k ted = .unknown) :
    ∀ x ∈ ted, ¬ x.sameLink link = true := by
  induction ted generalizing k with
  | nil => exact nofun
  | cons x ted ih =>
    unfold checkLinkValidity at h
    split at h
    · cases h
    · split at h
      · split at h <;> cases h
      · rename_i hlink
        intro y hy
        rcases List.mem_cons.mp hy with rfl | hy
        · exact hlink
        · exact ih h y hy

theorem checkLinkValidity_older {i : ℕ} (h : checkLinkValidity link k ted = .older i) :
    ∃ before x after, ted = before ++ x :: after ∧ i = k + before.length ∧
      x.sameLink link = true ∧ x.isOlder link = true := by
  induction ted generalizing k with
  | nil => cases h
  | cons x ted ih =>
    unfold checkLinkValidity at h
    split at h
    · cases h
    · split at h
      · rename_i hlink
        split at h <;> rename_i hold
        · cases h
          exact ⟨[], x, ted, rfl, rfl, hlink, hold⟩
        · cases h
      · obtain ⟨before, y, after, hted, hi, hy⟩ := ih h
        refine ⟨x :: before, y, after, ?_, ?_, hy⟩
        · rw [hted, List.cons_append]
        · rw [hi, List.length_cons]
          omega

theorem checkLinkValidity_ignore (h : checkLinkValidity link k ted = .ignore) :
    ∃ x ∈ ted, x.sameMessage link = true ∨ x.sameLink link = true ∧ ¬ x.isOlder link = true := by
  induction ted generalizing k with
  | nil => cases h
  | cons x ted ih =>
    unfold checkLinkValidity at h
    split at h <;> rename_i hmessage
    · exact ⟨x, List.mem_cons_self, .inl hmessage⟩
    · split at h <;> rename_i hlink
      · split at h <;> rename_i hold
        · cases h
        · exact ⟨x, List.mem_cons_self, .inr ⟨hlink, hold⟩⟩
      · obtain ⟨y, hy, hcase⟩ := ih h
        exact ⟨y, List.mem_cons_of_mem x hy, hcase⟩

end Validity

namespace Newest

variable {A : TELinkStateInfo → Prop} {ted seen forwarded : List TELinkStateInfo}
  {link x y : TELinkStateInfo}

section

variable (h : Newest ted seen forwarded)

include h

theorem eq_of_sameLink (hx : x ∈ ted) (hy : y ∈ ted) (hlink : x.sameLink y = true) : x = y :=
  List.inj_on_of_nodup_map h.unique hx hy (sameLink_iff_key.mp hlink)

/-- What the database holds is determined by what has been seen. -/
theorem mem_iff :
    x ∈ ted ↔ x ∈ seen ∧ ∀ y ∈ seen, y.sameLink x = true → y = x ∨ y.isOlder x = true := by
  constructor
  · exact h.newest x
  · rintro ⟨hx, hall⟩
    obtain ⟨y, hy, hlink⟩ := h.known x hx
    obtain ⟨hyseen, hyall⟩ := h.newest y hy
    rcases hall y hyseen hlink with rfl | hold
    · exact hy
    · rcases hyall x hx (sameLink_symm hlink) with rfl | hold'
      · exact hy
      · exact absurd hold' (isOlder_asymm hold)

theorem ignore_of_seen (hlink : link ∈ seen) :
    checkLinkValidity link 0 ted = .ignore := by
  cases hv : checkLinkValidity link 0 ted with
  | ignore => rfl
  | unknown =>
    obtain ⟨y, hy, hsame⟩ := h.known link hlink
    exact absurd hsame (checkLinkValidity_unknown hv y hy)
  | older i =>
    obtain ⟨before, x, after, hted, _, hsame, hold⟩ := checkLinkValidity_older hv
    have hx : x ∈ ted := by simp [hted]
    rcases (h.newest x hx).2 link hlink (sameLink_symm hsame) with rfl | hold'
    · exact absurd hold (isOlder_irrefl link)
    · exact absurd hold' (isOlder_asymm hold)

theorem insert (hnew : ∀ x ∈ ted, ¬ x.sameLink link = true) :
    Newest (ted ++ [link]) (seen ++ [link]) (forwarded ++ [link]) := by
  have hunseen : ∀ y ∈ seen, ¬ y.sameLink link = true := by
    intro y hy hsame
    obtain ⟨z, hz, hzy⟩ := h.known y hy
    exact hnew z hz (sameLink_trans hzy hsame)
  refine ⟨?_, fun x hx ↦ ?_, fun x hx ↦ ?_, ?_, fun x hx ↦ ?_⟩
  · rw [List.map_append]
    apply List.Nodup.append h.unique (List.nodup_singleton _)
    rw [List.disjoint_singleton]
    intro hmem
    obtain ⟨x, hx, hkey⟩ := List.mem_map.mp hmem
    exact hnew x hx (sameLink_iff_key.mpr hkey)
  · rcases List.mem_append.mp hx with hold | hx
    · refine ⟨List.mem_append_left _ (h.newest x hold).1, fun y hy hsame ↦ ?_⟩
      rcases List.mem_append.mp hy with hy | hy
      · exact (h.newest x hold).2 y hy hsame
      · rw [List.mem_singleton.mp hy] at hsame
        exact absurd (sameLink_symm hsame) (hnew x hold)
    · rw [List.mem_singleton] at hx
      subst hx
      refine ⟨List.mem_append_right _ (List.mem_singleton_self x), fun y hy hsame ↦ ?_⟩
      rcases List.mem_append.mp hy with hy | hy
      · exact absurd hsame (hunseen y hy)
      · exact .inl (List.mem_singleton.mp hy)
  · rcases List.mem_append.mp hx with hx | hx
    · obtain ⟨y, hy, hsame⟩ := h.known x hx
      exact ⟨y, List.mem_append_left _ hy, hsame⟩
    · rw [List.mem_singleton.mp hx]
      exact ⟨link, List.mem_append_right _ (List.mem_singleton_self link), by simp [sameLink]⟩
  · apply List.Nodup.append h.once (List.nodup_singleton link)
    rw [List.disjoint_singleton]
    intro hmem
    exact hunseen link (h.subset link hmem) (by simp [sameLink])
  · rcases List.mem_append.mp hx with hx | hx
    · exact List.mem_append_left _ (h.subset x hx)
    · exact List.mem_append_right _ hx

end

theorem replace {before after : List TELinkStateInfo} {old : TELinkStateInfo}
    (h : Newest (before ++ old :: after) seen forwarded) (hsame : old.sameLink link = true)
    (hold : old.isOlder link = true) :
    Newest (before ++ link :: after) (seen ++ [link]) forwarded ∧ link ∉ seen := by
  have hmem : old ∈ before ++ old :: after := by simp
  have hunseen : link ∉ seen := by
    intro hlink
    rcases (h.newest old hmem).2 link hlink (sameLink_symm hsame) with rfl | hold'
    · exact isOlder_irrefl link hold
    · exact isOlder_asymm hold hold'
  have hkey : old.key = link.key := sameLink_iff_key.mp hsame
  have hunique : ((before ++ link :: after).map key).Nodup := by
    have hkeys := h.unique
    rwa [List.map_append, List.map_cons, hkey, ← List.map_cons, ← List.map_append] at hkeys
  have hothers : ∀ x ∈ before ++ link :: after, x = link ∨
      x ∈ before ++ old :: after ∧ ¬ x.sameLink link = true := by
    intro x hx
    by_cases heq : x = link
    · exact .inl heq
    · refine .inr ⟨?_, fun hxlink ↦ heq ?_⟩
      · simp only [List.mem_append, List.mem_cons] at hx ⊢
        tauto
      · exact List.inj_on_of_nodup_map hunique hx (by simp) (sameLink_iff_key.mp hxlink)
  refine ⟨⟨hunique, fun x hx ↦ ?_, fun x hx ↦ ?_, h.once, fun x hx ↦ ?_⟩, hunseen⟩
  · rcases hothers x hx with rfl | ⟨hx, hne⟩
    · refine ⟨List.mem_append_right _ (List.mem_singleton_self x), fun y hy hyx ↦ ?_⟩
      rcases List.mem_append.mp hy with hy | hy
      · right
        rcases (h.newest old hmem).2 y hy (sameLink_trans hyx (sameLink_symm hsame)) with rfl | hyold
        · exact hold
        · exact isOlder_trans hyold hold
      · exact .inl (List.mem_singleton.mp hy)
    · refine ⟨List.mem_append_left _ (h.newest x hx).1, fun y hy hyx ↦ ?_⟩
      rcases List.mem_append.mp hy with hy | hy
      · exact (h.newest x hx).2 y hy hyx
      · rw [List.mem_singleton] at hy
        subst hy
        exact absurd (sameLink_symm hyx) hne
  · have hlink : link ∈ before ++ link :: after := by simp
    rcases List.mem_append.mp hx with hx | hx
    · obtain ⟨y, hy, hyx⟩ := h.known x hx
      by_cases hyold : y = old
      · subst hyold
        exact ⟨link, hlink, sameLink_trans (sameLink_symm hsame) hyx⟩
      · refine ⟨y, ?_, hyx⟩
        simp only [List.mem_append, List.mem_cons] at hy ⊢
        tauto
    · rw [List.mem_singleton.mp hx]
      exact ⟨link, hlink, by simp [sameLink]⟩
  · exact List.mem_append_left _ (h.subset x hx)

/-- An older announcement, or one that is known, changes nothing. -/
theorem ignore (h : Newest ted seen forwarded) (hx : x ∈ ted) (hsame : link.sameLink x = true)
    (hold : link = x ∨ link.isOlder x = true) : Newest ted (seen ++ [link]) forwarded := by
  refine ⟨h.unique, fun y hy ↦ ?_, fun y hy ↦ ?_, h.once, fun y hy ↦ ?_⟩
  · refine ⟨List.mem_append_left _ (h.newest y hy).1, fun z hz hzy ↦ ?_⟩
    rcases List.mem_append.mp hz with hz | hz
    · exact (h.newest y hy).2 z hz hzy
    · rw [List.mem_singleton] at hz
      subst hz
      rw [h.eq_of_sameLink hy hx (sameLink_trans (sameLink_symm hzy) hsame)]
      exact hold
  · rcases List.mem_append.mp hy with hy | hy
    · exact h.known y hy
    · rw [List.mem_singleton.mp hy]
      exact ⟨x, hx, sameLink_symm hsame⟩
  · exact List.mem_append_left _ (h.subset y hy)

theorem forward (h : Newest ted (seen ++ [link]) forwarded) (hunseen : link ∉ forwarded) :
    Newest ted (seen ++ [link]) (forwarded ++ [link]) := by
  refine ⟨h.unique, h.newest, h.known, ?_, fun x hx ↦ ?_⟩
  · apply List.Nodup.append h.once (List.nodup_singleton link)
    rw [List.disjoint_singleton]
    exact hunseen
  · rcases List.mem_append.mp hx with hx | hx
    · exact h.subset x hx
    · rw [List.mem_singleton.mp hx]
      exact List.mem_append_right _ (List.mem_singleton_self link)

theorem processLink (hA : Announcements A) (hlink : A link) (hseen : ∀ x ∈ seen, A x)
    {forward : List TELinkStateInfo} (h : Newest ted seen (forwarded ++ forward)) :
    ∃ y, Router.processLink (ted, forward) link = .ok y ∧
      Newest y.1 (seen ++ [link]) (forwarded ++ y.2) := by
  have hted : ∀ x ∈ ted, A x := fun x hx ↦ hseen x (h.newest x hx).1
  have hsource : (link.sourceId == link.advrouter.toNat) = true := by
    rw [hA.source link hlink]
    exact beq_self_eq_true _
  unfold Router.processLink
  cases hv : checkLinkValidity link 0 ted with
  | ignore =>
    refine ⟨_, rfl, ?_⟩
    obtain ⟨x, hx, hmessage | ⟨hsame, hold⟩⟩ := checkLinkValidity_ignore hv
    · obtain rfl := hA.unique x link (hted x hx) hlink hmessage
      exact h.ignore hx (by simp [sameLink]) (.inl rfl)
    · exact h.ignore hx (sameLink_symm hsame)
        (hA.total hlink (hted x hx) (sameLink_symm hsame) hold)
  | unknown =>
    rw [hsource, check_true, ok_bind]
    refine ⟨_, rfl, ?_⟩
    rw [← List.append_assoc]
    exact h.insert (checkLinkValidity_unknown hv)
  | older i =>
    obtain ⟨before, x, after, rfl, rfl, hsame, hold⟩ := checkLinkValidity_older hv
    rw [hsource, check_true, ok_bind]
    refine ⟨_, rfl, ?_⟩
    have hx : A x := hted x (by simp)
    have hmodify : (before ++ x :: after).modify (0 + before.length) (·.copyInfo link) =
        before ++ link :: after := by
      rw [Nat.zero_add, List.modify_eq_take_cons_drop (by simp), List.take_left,
        List.getElem_append_right (le_refl _)]
      simp [hA.copyInfo hx hlink hsame]
    dsimp only
    rw [hmodify, ← List.append_assoc]
    obtain ⟨hreplace, hunseen⟩ := h.replace hsame hold
    exact hreplace.forward fun hmem ↦ hunseen (h.subset link hmem)

theorem foldlM (hA : Announcements A) {links : List TELinkStateInfo} (hlinks : ∀ x ∈ links, A x)
    (hseen : ∀ x ∈ seen, A x) {forward : List TELinkStateInfo}
    (h : Newest ted seen (forwarded ++ forward)) :
    ∃ y, links.foldlM Router.processLink (ted, forward) = .ok y ∧
      Newest y.1 (seen ++ links) (forwarded ++ y.2) := by
  induction links generalizing ted seen forward with
  | nil => exact ⟨(ted, forward), rfl, by rwa [List.append_nil]⟩
  | cons link links ih =>
    have hlink := hlinks link List.mem_cons_self
    obtain ⟨y, hy, hnewest⟩ := h.processLink hA hlink hseen
    have hseen' : ∀ x ∈ seen ++ [link], A x := by
      intro x hx
      rcases List.mem_append.mp hx with hx | hx
      · exact hseen x hx
      · rw [List.mem_singleton.mp hx]
        exact hlink
    obtain ⟨z, hz, hnewest'⟩ :=
      ih (fun x hx ↦ hlinks x (List.mem_cons_of_mem link hx)) hseen' hnewest
    refine ⟨z, ?_, ?_⟩
    · rw [List.foldlM_cons]
      exact bind_ok_iff.mpr ⟨y, hy, hz⟩
    · rwa [List.append_assoc, List.singleton_append] at hnewest'

theorem foldlM_seen (h : Newest ted seen forwarded) {links forward : List TELinkStateInfo}
    (hlinks : ∀ x ∈ links, x ∈ seen) :
    links.foldlM Router.processLink (ted, forward) = .ok (ted, forward) := by
  induction links with
  | nil => rfl
  | cons link links ih =>
    rw [List.foldlM_cons]
    apply bind_ok_iff.mpr
    refine ⟨(ted, forward), ?_, ih fun x hx ↦ hlinks x (List.mem_cons_of_mem link hx)⟩
    unfold Router.processLink
    rw [h.ignore_of_seen (hlinks link List.mem_cons_self)]

end Newest

/-! ## Own announcements -/

/-- A router at time `now` among the announcements `A` of the network. -/
structure Own (A : TELinkStateInfo → Prop) (r : Router) (now : ℤ)
    (seen forwarded : List TELinkStateInfo) : Prop where
  announcements : Announcements A
  messageIds : ∀ x, A x → x.advrouter = r.routerId → x.messageId ≤ r.maxMessageId
  timestamps : ∀ x, A x → x.timestamp ≤ now
  announced : ∀ x ∈ seen, A x
  newest : Newest r.ted seen forwarded

namespace Announcements

variable {A : TELinkStateInfo → Prop}

theorem updateTimestamp (h : Announcements A) {entry : TELinkStateInfo} (hentry : A entry)
    {messageId : ℕ} (hid : ∀ x, A x → x.advrouter = entry.advrouter → x.messageId < messageId)
    (c : Router.Contents) (now : ℤ) :
    Announcements fun x ↦ A x ∨ x = Router.updateTimestamp entry c now messageId := by
  have hnew : ∀ x, A x → ¬ (x.sourceId = entry.sourceId ∧ x.messageId = messageId) := by
    rintro x hx ⟨hsource, rfl⟩
    rw [h.source x hx, h.source entry hentry] at hsource
    exact absurd (hid x hx (BitVec.eq_of_toNat_eq hsource)) (lt_irrefl _)
  refine ⟨?_, ?_, ?_⟩
  · rintro x y (hx | rfl) (hy | rfl) hsame
    · exact h.unique x y hx hy hsame
    · rw [sameMessage_iff] at hsame
      exact absurd ⟨hsame.1, hsame.2.1⟩ (hnew x hx)
    · rw [sameMessage_iff] at hsame
      exact absurd ⟨hsame.1.symm, hsame.2.1.symm⟩ (hnew y hy)
    · rfl
  · rintro x y (hx | rfl) (hy | rfl) hsame
    · exact h.addresses x y hx hy hsame
    · exact h.addresses x entry hx hentry hsame
    · exact h.addresses entry y hentry hy hsame
    · exact ⟨rfl, rfl⟩
  · rintro x (hx | rfl)
    · exact h.source x hx
    · exact h.source entry hentry

theorem congr {B : TELinkStateInfo → Prop} (h : Announcements A) (hB : ∀ x, B x → A x) :
    Announcements B :=
  ⟨fun x y hx hy ↦ h.unique x y (hB x hx) (hB y hy),
    fun x y hx hy ↦ h.addresses x y (hB x hx) (hB y hy), fun x hx ↦ h.source x (hB x hx)⟩

end Announcements

namespace Own

variable {A : TELinkStateInfo → Prop} {r : Router} {now : ℤ}
  {seen forwarded : List TELinkStateInfo}

/-- One link of a change notification: the new announcement is the newest of the link. -/
theorem announceLink (h : Own A r now seen forwarded) {contents : ℕ → Router.Contents} {index : ℕ}
    {links : List TELinkStateInfo} {y : Router × List TELinkStateInfo}
    (hy : Router.announceLink now contents (r, links) index = .ok y) :
    ∃ link, y.2 = links ++ [link] ∧ y.1.routerId = r.routerId ∧ link.advrouter = r.routerId ∧
      Own (fun x ↦ A x ∨ x = link) y.1 now (seen ++ [link]) forwarded := by
  unfold Router.announceLink at hy
  dsimp only at hy
  split at hy
  · cases hy
  rename_i entry hentry
  obtain ⟨_, hcheck, hy⟩ := bind_ok_iff.mp hy
  have hadv : entry.advrouter = r.routerId := by simpa using hcheck
  cases hy
  obtain ⟨hlt, rfl⟩ := List.getElem?_eq_some_iff.mp hentry
  have hA : A r.ted[index] := h.announced _ (h.newest.newest _ (List.getElem_mem hlt)).1
  have hids : ∀ x, A x → x.advrouter = r.ted[index].advrouter →
      x.messageId < r.maxMessageId + 1 := by
    intro x hx hxadv
    have := h.messageIds x hx (hxadv.trans hadv)
    omega
  have hold : r.ted[index].isOlder
      (Router.updateTimestamp r.ted[index] (contents index) now (r.maxMessageId + 1)) = true := by
    have htime := h.timestamps _ hA
    have hid := hids _ hA rfl
    rw [isOlder_iff]
    dsimp only [Router.updateTimestamp]
    omega
  have hsplit : r.ted = r.ted.take index ++ r.ted[index] :: r.ted.drop (index + 1) := by
    rw [List.getElem_cons_drop hlt, List.take_append_drop]
  have hnewest := h.newest
  rw [hsplit] at hnewest
  refine ⟨_, rfl, rfl, hadv, h.announcements.updateTimestamp hA hids _ now, ?_, ?_, ?_, ?_⟩
  · rintro x (hx | rfl) hxadv
    · exact (h.messageIds x hx hxadv).trans (Nat.le_succ _)
    · exact le_refl _
  · rintro x (hx | rfl)
    · exact h.timestamps x hx
    · exact le_refl _
  · intro x hx
    rcases List.mem_append.mp hx with hx | hx
    · exact .inl (h.announced x hx)
    · exact .inr (List.mem_singleton.mp hx)
  · dsimp only
    rw [List.set_eq_take_append_cons_drop, if_pos hlt]
    exact (hnewest.replace (by simp [sameLink, Router.updateTimestamp]) hold).1

theorem foldlM (h : Own A r now seen forwarded) {contents : ℕ → Router.Contents}
    {indices : List ℕ} {links : List TELinkStateInfo} {y : Router × List TELinkStateInfo}
    (hy : indices.foldlM (Router.announceLink now contents) (r, links) = .ok y) :
    ∃ new, y.2 = links ++ new ∧ y.1.routerId = r.routerId ∧
      (∀ x ∈ new, x.advrouter = r.routerId) ∧
      Own (fun x ↦ A x ∨ x ∈ new) y.1 now (seen ++ new) forwarded := by
  induction indices generalizing A r seen links with
  | nil =>
    cases hy
    refine ⟨[], (List.append_nil links).symm, rfl, nofun, ?_⟩
    simpa using h
  | cons index indices ih =>
    rw [List.foldlM_cons] at hy
    obtain ⟨⟨r', links'⟩, hfirst, hrest⟩ := bind_ok_iff.mp hy
    obtain ⟨link, hlinks, hid, hadv, hown⟩ := h.announceLink hfirst
    obtain ⟨new, hnew, hid', hadv', hown'⟩ := ih hown hrest
    dsimp only at hlinks hid hid' hadv'
    refine ⟨link :: new, ?_, hid'.trans hid, ?_, ?_⟩
    · rw [hnew, hlinks, List.append_assoc, List.singleton_append]
    · intro x hx
      rcases List.mem_cons.mp hx with rfl | hx
      · exact hadv
      · exact (hadv' x hx).trans hid
    · simpa only [List.append_assoc, List.singleton_append, List.mem_cons, or_assoc] using hown'

end Own

/-! ## The network -/

section Network

variable {ι : Type}

/-- Some router has received or made the announcement. -/
def Net.Announced (net : Net ι) (x : TELinkStateInfo) : Prop := ∃ i, x ∈ (net.node i).seen

/-- Nothing has been sent yet. The routers have different ids and know some announcements, at most
one for each link. -/
structure Net.Started (net : Net ι) : Prop where
  announcements : Announcements net.Announced
  ids : ∀ i j, (net.node i).routerId = (net.node j).routerId → i = j
  messageIds : ∀ i x, net.Announced x → x.advrouter = (net.node i).routerId →
    x.messageId ≤ (net.node i).maxMessageId
  timestamps : ∀ x, net.Announced x → x.timestamp ≤ net.clock
  unique : ∀ i, ((net.node i).ted.map key).Nodup
  seen : ∀ i, (net.node i).seen = (net.node i).ted
  forwarded : ∀ i, (net.node i).forwarded = []
  sent : net.sent = []

/-- Only messages that have been sent are delivered, any number of times and to any router, and time
does not go back. -/
def Net.Allowed (net : Net ι) : Event ι → Prop
  | .deliver _ msg => msg ∈ net.sent
  | .change _ now _ _ => net.clock ≤ now
  | .announce _ => True

structure Net.Flooded (net : Net ι) : Prop where
  announcements : Announcements net.Announced
  ids : ∀ i j, (net.node i).routerId = (net.node j).routerId → i = j
  messageIds : ∀ i x, net.Announced x → x.advrouter = (net.node i).routerId →
    x.messageId ≤ (net.node i).maxMessageId
  timestamps : ∀ x, net.Announced x → x.timestamp ≤ net.clock
  newest : ∀ i, Newest (net.node i).ted (net.node i).seen (net.node i).forwarded
  sent : ∀ msg ∈ net.sent, ∀ x ∈ msg.linkInfo, net.Announced x

namespace Net

variable {net : Net ι}

/-- Databases with one entry for each link hold the newest announcements they started from. -/
theorem Started.flooded (h : net.Started) : net.Flooded := by
  refine ⟨h.announcements, h.ids, h.messageIds, h.timestamps, fun i ↦ ?_, ?_⟩
  · rw [h.seen i, h.forwarded i]
    refine ⟨h.unique i, fun x hx ↦ ⟨hx, fun y hy hsame ↦ .inl ?_⟩, fun x hx ↦ ?_, List.nodup_nil,
      nofun⟩
    · exact List.inj_on_of_nodup_map (h.unique i) hy hx (sameLink_iff_key.mp hsame)
    · exact ⟨x, hx, by simp [sameLink]⟩
  · rw [h.sent]
    exact nofun

namespace Flooded

theorem mem_sent (h : net.Flooded) {i : ι} {x : TELinkStateInfo} (hx : x ∈ (net.node i).ted) :
    net.Announced x :=
  ⟨i, ((h.newest i).newest x hx).1⟩

theorem linkInfo_sendToPeers {r : Router} {list : List TELinkStateInfo} {req : Bool}
    {exceptPeer : IPAddress} {msg : LinkStateMsg} (h : msg ∈ r.sendToPeers list req exceptPeer) :
    msg.linkInfo = list := by
  obtain ⟨_, _, rfl⟩ := List.mem_map.mp h
  rfl

theorem announce (h : net.Flooded) (i : ι) : Flooded { net with
    sent := net.sent ++ (net.node i).sendToPeers (net.node i).ted true 0 } := by
  refine ⟨h.announcements, h.ids, h.messageIds, h.timestamps, h.newest, fun msg hmsg x hx ↦ ?_⟩
  rcases List.mem_append.mp hmsg with hmsg | hmsg
  · exact h.sent msg hmsg x hx
  · rw [linkInfo_sendToPeers hmsg] at hx
    exact h.mem_sent hx

variable [DecidableEq ι]

theorem announced_update {i : ι} {r : Router} {forwarded links : List TELinkStateInfo}
    {sent : List LinkStateMsg} {clock : ℤ} {x : TELinkStateInfo} :
    Announced ⟨Function.update net.node i ⟨r, (net.node i).seen ++ links, forwarded⟩, sent, clock⟩ x ↔
      net.Announced x ∨ x ∈ links := by
  unfold Announced
  dsimp only
  constructor
  · rintro ⟨j, hj⟩
    by_cases hji : j = i
    · subst hji
      rw [Function.update_self] at hj
      rcases List.mem_append.mp hj with hj | hj
      · exact .inl ⟨j, hj⟩
      · exact .inr hj
    · rw [Function.update_of_ne hji] at hj
      exact .inl ⟨j, hj⟩
  · rintro (⟨j, hj⟩ | hx)
    · refine ⟨j, ?_⟩
      by_cases hji : j = i
      · subst hji
        rw [Function.update_self]
        exact List.mem_append_left _ hj
      · rwa [Function.update_of_ne hji]
    · refine ⟨i, ?_⟩
      rw [Function.update_self]
      exact List.mem_append_right _ hx

theorem update (h : net.Flooded) {i : ι} {r : Router} {links forwarded : List TELinkStateInfo}
    {msgs : List LinkStateMsg} {clock : ℤ} (hid : r.routerId = (net.node i).routerId)
    (hown : Own (fun x ↦ net.Announced x ∨ x ∈ links) r clock ((net.node i).seen ++ links) forwarded)
    (hothers : ∀ x ∈ links, ∀ j, j ≠ i → x.advrouter = (net.node j).routerId → net.Announced x)
    (hmsgs : ∀ msg ∈ msgs, ∀ x ∈ msg.linkInfo, net.Announced x ∨ x ∈ links) :
    Flooded ⟨Function.update net.node i ⟨r, (net.node i).seen ++ links, forwarded⟩,
      net.sent ++ msgs, clock⟩ := by
  have hids : ∀ j, (Function.update net.node i
      (⟨r, (net.node i).seen ++ links, forwarded⟩ : Node) j).routerId = (net.node j).routerId := by
    intro j
    by_cases hji : j = i
    · subst hji
      rw [Function.update_self]
      exact hid
    · rw [Function.update_of_ne hji]
  refine ⟨?_, fun j k hjk ↦ ?_, fun j x hx hadv ↦ ?_, fun x hx ↦ ?_, fun j ↦ ?_, fun msg hmsg x hx ↦ ?_⟩
  · exact hown.announcements.congr fun x ↦ announced_update.mp
  · dsimp only at hjk
    rw [hids j, hids k] at hjk
    exact h.ids j k hjk
  · rw [announced_update] at hx
    dsimp only at hadv ⊢
    rw [hids j] at hadv
    by_cases hji : j = i
    · subst hji
      rw [Function.update_self]
      exact hown.messageIds x hx (hadv.trans hid.symm)
    · rw [Function.update_of_ne hji]
      rcases hx with hx | hx
      · exact h.messageIds j x hx hadv
      · exact h.messageIds j x (hothers x hx j hji hadv) hadv
  · exact hown.timestamps x (announced_update.mp hx)
  · dsimp only
    by_cases hji : j = i
    · subst hji
      rw [Function.update_self]
      exact hown.newest
    · rw [Function.update_of_ne hji]
      exact h.newest j
  · rw [announced_update]
    rcases List.mem_append.mp hmsg with hmsg | hmsg
    · exact .inl (h.sent msg hmsg x hx)
    · exact hmsgs msg hmsg x hx

theorem deliver (h : net.Flooded) (i : ι) {msg : LinkStateMsg} (hmsg : msg ∈ net.sent) :
    ∃ net', net.step (.deliver i msg) = .ok net' ∧ net'.Flooded := by
  have hlinks : ∀ x ∈ msg.linkInfo, net.Announced x := h.sent msg hmsg
  have hnewest := h.newest i
  rw [← List.append_nil (net.node i).forwarded] at hnewest
  obtain ⟨⟨ted, forward⟩, hfold, hted⟩ :=
    hnewest.foldlM h.announcements hlinks fun x hx ↦ ⟨i, hx⟩
  have hprocess : (net.node i).processLINK_STATE_MESSAGE msg = .ok (_, forward, _) :=
    bind_ok_iff.mpr ⟨_, hfold, rfl⟩
  refine ⟨_, bind_ok_iff.mpr ⟨_, hprocess, rfl⟩, ?_⟩
  have hseen : ∀ x ∈ (net.node i).seen ++ msg.linkInfo, net.Announced x := by
    intro x hx
    rcases List.mem_append.mp hx with hx | hx
    · exact ⟨i, hx⟩
    · exact hlinks x hx
  have hor : ∀ x, net.Announced x ∨ x ∈ msg.linkInfo → net.Announced x := by
    rintro x (hx | hx)
    · exact hx
    · exact hlinks x hx
  apply h.update (r := { (net.node i).toRouter with ted }) rfl
  · exact ⟨h.announcements.congr hor, fun x hx ↦ h.messageIds i x (hor x hx),
      fun x hx ↦ h.timestamps x (hor x hx), fun x hx ↦ .inl (hseen x hx), hted⟩
  · intro x hx _ _ _
    exact hlinks x hx
  · intro m hm x hx
    rcases List.mem_append.mp hm with hm | hm
    · split at hm
      · rw [List.mem_singleton.mp hm] at hx
        exact .inl (hseen x (hted.newest x hx).1)
      · cases hm
    · split at hm
      · cases hm
      · rw [linkInfo_sendToPeers hm] at hx
        exact .inl (hseen x (hted.subset x (List.mem_append_right _ hx)))

theorem change (h : net.Flooded) {net' : Net ι} {i : ι} {now : ℤ}
    {contents : ℕ → Router.Contents} {indices : List ℕ} (hnow : net.clock ≤ now)
    (hstep : net.step (.change i now contents indices) = .ok net') : net'.Flooded := by
  obtain ⟨x, hx, hnet⟩ := bind_ok_iff.mp hstep
  obtain ⟨_, _, hx⟩ := bind_ok_iff.mp hx
  obtain ⟨⟨r, links⟩, hfold, hx⟩ := bind_ok_iff.mp hx
  cases hx
  cases hnet
  have hown : Own net.Announced (net.node i).toRouter now (net.node i).seen
      (net.node i).forwarded :=
    ⟨h.announcements, h.messageIds i, fun x hx ↦ (h.timestamps x hx).trans hnow,
      fun x hx ↦ ⟨i, hx⟩, h.newest i⟩
  obtain ⟨new, hnew, hid, hadv, hown'⟩ := hown.foldlM hfold
  rw [List.nil_append] at hnew
  dsimp only at hnew
  subst hnew
  apply h.update hid hown'
  · intro x hx j hji hxj
    exact absurd (h.ids j i (hxj.symm.trans (hadv x hx))) hji
  · intro m hm x hx
    rw [linkInfo_sendToPeers hm] at hx
    exact .inr hx

theorem step (h : net.Flooded) {net' : Net ι} {e : Event ι} (hallowed : net.Allowed e)
    (hstep : net.step e = .ok net') : net'.Flooded := by
  cases e with
  | deliver i msg =>
    obtain ⟨_, hok, hflooded⟩ := h.deliver i hallowed
    rw [hok] at hstep
    cases hstep
    exact hflooded
  | change i now contents indices => exact h.change hallowed hstep
  | announce i =>
    cases hstep
    exact h.announce i

theorem of_reachable (h : Reachable Net.Started Net.Allowed Net.step net) : net.Flooded :=
  h.invariant (fun _ ↦ Started.flooded) fun _ _ _ hinv ↦ hinv.step

end Flooded

end Net

/-- However the messages of the routers are ordered, duplicated, lost and interleaved with local
changes: a database has one entry for each link that has been seen, the newest announcement; what it
holds depends on the set of announcements only; and announcements are forwarded once and are ignored
when they come again. -/
theorem flooding_order_insensitive [DecidableEq ι] {net net' : Net ι}
    (h : Reachable Net.Started Net.Allowed Net.step net)
    (h' : Reachable Net.Started Net.Allowed Net.step net') (i j : ι) :
    ((net.node i).ted.map key).Nodup ∧
    (∀ x, x ∈ (net.node i).ted ↔ x ∈ (net.node i).seen ∧
      ∀ y ∈ (net.node i).seen, y.sameLink x = true → y = x ∨ y.isOlder x = true) ∧
    (∀ x ∈ (net.node i).seen, ∃ y ∈ (net.node i).ted, y.sameLink x = true) ∧
    ((∀ x, x ∈ (net.node i).seen ↔ x ∈ (net'.node j).seen) →
      (net.node i).ted.Perm (net'.node j).ted) ∧
    (net.node i).forwarded.Nodup ∧
    (∀ msg, (∀ x ∈ msg.linkInfo, x ∈ (net.node i).seen) →
      (net.node i).processLINK_STATE_MESSAGE msg = .ok ((net.node i).toRouter, [],
        if msg.request then [(net.node i).sendToPeer msg.sender (net.node i).ted false] else [])) ∧
    ∀ msg ∈ net.sent, ∃ net₁, net.step (.deliver i msg) = .ok net₁ := by
  have hflooded := Net.Flooded.of_reachable h
  have hnewest := hflooded.newest i
  have hnewest' := (Net.Flooded.of_reachable h').newest j
  refine ⟨hnewest.unique, fun x ↦ hnewest.mem_iff, hnewest.known, fun hseen ↦ ?_, hnewest.once,
    fun msg hmsg ↦ ?_, fun msg hmsg ↦ ?_⟩
  · rw [List.perm_ext_iff_of_nodup hnewest.unique.of_map hnewest'.unique.of_map]
    intro x
    rw [hnewest.mem_iff, hnewest'.mem_iff]
    simp only [hseen]
  · apply bind_ok_iff.mpr
    refine ⟨_, hnewest.foldlM_seen hmsg, ?_⟩
    simp only [List.isEmpty_nil, if_true, List.append_nil]
    rfl
  · obtain ⟨net₁, hstep, _⟩ := hflooded.deliver i hmsg
    exact ⟨net₁, hstep⟩

end Network

/-- Two routers with one link from the first to the second. -/
def twoRouters (link : TELinkStateInfo) : Net Bool where
  node
    | true => { routerId := 1, peerIfAddrs := [10], ted := [link], maxMessageId := 1, seen := [link],
                forwarded := [] }
    | false => { routerId := 2, peerIfAddrs := [], ted := [], maxMessageId := 0, seen := [],
                 forwarded := [] }
  sent := []
  clock := 0

def aLink : TELinkStateInfo where
  advrouter := 1
  linkid := 2
  localAddr := 10
  metric := 1
  maxBandwidth := 5
  unResvBandwidth := fun _ ↦ 5
  timestamp := 0
  sourceId := 1
  messageId := 1
  state := true

theorem twoRouters_started : (twoRouters aLink).Started := by
  have hone : ∀ x, (twoRouters aLink).Announced x → x = aLink := by
    rintro x ⟨⟨⟩ | ⟨⟩, hx⟩
    · cases hx
    · exact List.mem_singleton.mp hx
  refine ⟨⟨?_, ?_, ?_⟩, by decide, ?_, ?_, ?_, ?_, ?_, rfl⟩
  · intro x y hx hy _
    rw [hone x hx, hone y hy]
  · intro x y hx hy _
    rw [hone x hx, hone y hy]
    exact ⟨rfl, rfl⟩
  · intro x hx
    rw [hone x hx]
    rfl
  · rintro ⟨⟩ x hx hadv <;> rw [hone x hx] at hadv ⊢
    · exact absurd hadv (by decide)
    · exact le_refl 1
  · intro x hx
    rw [hone x hx]
    exact le_refl 0
  · rintro ⟨⟩
    · exact List.nodup_nil
    · exact List.nodup_singleton _
  · rintro ⟨⟩ <;> rfl
  · rintro ⟨⟩ <;> rfl

/-- The link changes, and the message is delivered twice. -/
theorem flooding_order_insensitive_twoRouters : ∃ net net₁ : Net Bool,
    Reachable Net.Started Net.Allowed Net.step net ∧ (net.node false).ted.length = 1 ∧
    ((net.node false).ted.map key).Nodup ∧ (net.node false).forwarded.Nodup ∧
    net.step (.deliver false ((net.node true).sendToPeer 2 (net.node true).ted false)) = .ok net₁ := by
  obtain ⟨net, hnet, hted, hsent⟩ : ∃ net : Net Bool,
      Reachable Net.Started Net.Allowed Net.step net ∧ (net.node false).ted.length = 1 ∧
      (net.node true).sendToPeer 2 (net.node true).ted false ∈ net.sent := by
    let c : Router.Contents := ⟨2, 5, fun _ ↦ 5, true⟩
    let msg : LinkStateMsg := ⟨1, 2, [Router.updateTimestamp aLink c 3 2], false⟩
    have hstart : Reachable Net.Started Net.Allowed Net.step (twoRouters aLink) :=
      Reachable.start twoRouters_started
    have htime : (twoRouters aLink).Allowed (.change true 3 (fun _ ↦ c) [0]) := by
      change (0 : ℤ) ≤ 3
      omega
    have hchanged := hstart.next htime rfl
    have hdelivered := hchanged.next (e := .deliver false msg) List.mem_cons_self rfl
    have hagain := hdelivered.next (e := .deliver false msg) List.mem_cons_self rfl
    exact ⟨_, hagain, rfl, List.mem_cons_self⟩
  have hall := flooding_order_insensitive hnet hnet false false
  obtain ⟨net₁, hnet₁⟩ := hall.2.2.2.2.2.2 _ hsent
  exact ⟨net, net₁, hnet, hted, hall.1, hall.2.2.2.2.1, hnet₁⟩

end InetManet.TED
