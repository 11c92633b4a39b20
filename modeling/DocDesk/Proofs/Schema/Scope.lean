import DocDesk.Proofs.Steps
import DocDesk.Schema.Scope

/-!
# References from below a root

The bases that were left on the way to a schema come to matter where a reference is taken to the outermost
schema that allows it.  Where all of them are known names and the first that was left is the root, every
reference of that kind leads to the root.  Other references do not depend on them.

Main statements: `Scope.Rooted.leave`, `Scope.follow_of_follow`, `Scope.Rooted.exists_lookupRecursive` and
`Scope.Rooted.exists_lookup_dynamic`.
-/

namespace DocDesk.Schema.Scope

/-! ## Scopes below a root -/

/-- The scope has a known base, and so have the places on the way to it, of which the first one is the
root; a scope that nothing leads to is at the root itself. -/
structure Rooted (d : Draft) (names : List String) (root : String) (s : Scope) : Prop where
  draft : s.draft = d
  base : s.base ∈ names
  outer : ∀ b ∈ s.outer, b ∈ names
  first : s.outer.getLast?.getD s.base = root

/-- The scope of a root that is among the names. -/
theorem rooted_ofRoot {r : Resource} {names : List String} {root : String} (hname : r.name? = some root)
    (hroot : root ∈ names) : (ofRoot r).Rooted r.draft names root := by
  have hscope : ofRoot r = ⟨r.draft, root, []⟩ := by rw [ofRoot, hname, Option.getD_some]
  rw [hscope]
  exact ⟨rfl, hroot, nofun, rfl⟩

section Leave

variable {d : Draft} {names : List String} {root : String} {s : Scope}

/-- Once a base was left, the first that was left is the root. -/
theorem Rooted.getLast?_outer_leave (h : s.Rooted d names root) (hempty : "" ∉ names) (there : String) :
    (s.leave there).outer.getLast? = some root := by
  have hbase : s.base ≠ "" := fun heq => hempty (heq ▸ h.base)
  have hfirst := h.first
  unfold Scope.leave
  cases houter : s.outer with
  | nil =>
    rw [houter] at hfirst
    have hroot : s.base = root := hfirst
    dsimp only
    rw [if_pos ⟨hbase, .inl rfl⟩, hroot]
    rfl
  | cons b bs =>
    rw [houter, List.getLast?_eq_some_getLast (List.cons_ne_nil b bs)] at hfirst
    have hlast : (b :: bs).getLast (List.cons_ne_nil b bs) = root := hfirst
    dsimp only
    split
    · rw [List.getLast?_cons_cons, List.getLast?_eq_some_getLast (List.cons_ne_nil b bs), hlast]
    · rw [List.getLast?_eq_some_getLast (List.cons_ne_nil b bs), hlast]

/-- From a scope below the root every known place is below the root. -/
theorem Rooted.leave (h : s.Rooted d names root) (hempty : "" ∉ names) {there : String}
    (hthere : there ∈ names) : (s.leave there).Rooted d names root where
  draft := h.draft
  base := hthere
  outer := by
    unfold Scope.leave
    dsimp only
    split
    · exact List.forall_mem_cons.mpr ⟨h.base, h.outer⟩
    · exact h.outer
  first := by rw [h.getLast?_outer_leave hempty, Option.getD_some]

end Leave

/-! ## Pointers -/

/-- What a pointer leads to does not depend on the bases that were left. -/
theorem follow_outer {d : Draft} {nowhere : Failure} {tokens : List (List Char)} {steps : List Step}
    {v w : Json} {s there : Scope} (h : follow d nowhere tokens steps v s = .ok (w, there))
    (outer : List String) :
    follow d nowhere tokens steps v { s with outer } = .ok (w, { there with outer }) := by
  induction tokens generalizing steps v s with
  | nil =>
    cases h
    rfl
  | cons token tokens ih =>
    rw [follow] at h ⊢
    obtain ⟨⟨step, next⟩, hpart, h⟩ := exists_of_bind_eq_ok h
    rw [hpart]
    dsimp only [bind, Except.bind] at h ⊢
    have henter : enter { s with outer } ⟨d, next⟩ = { s.enter ⟨d, next⟩ with outer } := by
      unfold enter
      split <;> rfl
    split at h
    · next hnamed =>
      rw [if_pos hnamed, henter]
      exact ih h
    · next hplain =>
      rw [if_neg hplain]
      exact ih h

/-- A pointer leads to a scope of the same draft. -/
theorem draft_of_follow {d : Draft} {nowhere : Failure} {tokens : List (List Char)} {steps : List Step}
    {v w : Json} {s there : Scope} (h : follow d nowhere tokens steps v s = .ok (w, there)) :
    there.draft = s.draft := by
  induction tokens generalizing steps v s with
  | nil =>
    cases h
    rfl
  | cons token tokens ih =>
    rw [follow] at h
    obtain ⟨⟨step, next⟩, -, h⟩ := exists_of_bind_eq_ok h
    dsimp only at h
    split at h
    · have henter : (s.enter ⟨d, next⟩).draft = s.draft := by
        unfold enter
        split <;> rfl
      exact (ih h).trans henter
    · exact ih h

/-! ## References -/

section Lookup

variable {l : Library} {s : Scope} {r : Resource} {reference uri : String} {followed : Bool}

/-- A reference to a whole resource leads to it. -/
theorem lookup_whole (haddress : s.address reference = (uri, []))
    (hresource : l.resource? uri = .ok (some r)) :
    s.lookup l reference followed = .ok (r.contents, s.leave uri) := by
  unfold lookup
  rw [haddress]
  dsimp only
  rw [hresource]
  rfl

/-- A reference by a pointer leads to what the pointer leads to. -/
theorem lookup_pointer {pointer : List Char} (haddress : s.address reference = (uri, '/' :: pointer))
    (hresource : l.resource? uri = .ok (some r)) :
    s.lookup l reference followed =
      follow r.draft (.reference (.nowhere (String.ofList ('/' :: pointer)) r.contents) followed)
        (Text.splitAt '/' (Uri.unescaped pointer)) [] r.contents (s.leave uri) := by
  unfold lookup
  rw [haddress]
  dsimp only
  rw [hresource]
  rfl

/-- A reference by an anchor leads to the place of the anchor. -/
theorem lookup_anchor {a : Anchor} {c : Char} {cs : List Char}
    (haddress : s.address reference = (uri, c :: cs)) (hslash : c ≠ '/')
    (hresource : l.resource? uri = .ok (some r))
    (hanchor : l.anchor? uri (String.ofList (c :: cs)) = .ok (some a)) :
    s.lookup l reference followed = (s.leave uri).ofAnchor l (String.ofList (c :: cs)) a := by
  unfold lookup
  rw [haddress]
  dsimp only
  rw [hresource]
  dsimp only [bind, Except.bind]
  split
  · next hnil => cases hnil
  · next hpointer => exact absurd (List.cons.inj hpointer).1 hslash
  · rw [hanchor]

end Lookup

/-! ## References to the outermost schema -/

section Outermost

variable {l : Library} {d : Draft} {documents : List (String × Json)} {root : String} {s : Scope}
  {followed : Bool}

/-- Where all bases are open to recursive references, the last one is the outermost. -/
theorem exists_outermost (hresources : ∀ p ∈ documents, l.resource? p.1 = .ok (some ⟨d, p.2⟩))
    (hopen : ∀ p ∈ documents, isRecursiveAnchor p.2 = true)
    (haddress : ∀ p ∈ documents, s.address p.1 = (p.1, [])) {bases : List String}
    (hbases : ∀ b ∈ bases, b ∈ documents.map Prod.fst) (hne : bases ≠ []) (found : Json × Scope) :
    ∃ contents, (bases.getLast hne, contents) ∈ documents ∧
      outermost l s followed bases found = .ok (contents, s.leave (bases.getLast hne)) := by
  induction bases generalizing found with
  | nil => exact absurd rfl hne
  | cons b bs ih =>
    obtain ⟨hb, hbs⟩ := List.forall_mem_cons.mp hbases
    obtain ⟨⟨name, contents⟩, hmem, rfl⟩ := List.mem_map.mp hb
    have hlookup : s.lookup l name followed = .ok (contents, s.leave name) :=
      lookup_whole (haddress _ hmem) (hresources _ hmem)
    have hstep : outermost l s followed (name :: bs) found =
        outermost l s followed bs (contents, s.leave name) := by
      rw [outermost, hlookup]
      exact if_pos (hopen _ hmem)
    rw [hstep]
    by_cases hrest : bs = []
    · subst hrest
      exact ⟨contents, hmem, rfl⟩
    · rw [List.getLast_cons hrest]
      exact ih hbs hrest _

/-- A recursive reference from below a root leads to the root. -/
theorem Rooted.exists_lookupRecursive (h : s.Rooted d (documents.map Prod.fst) root)
    (hresources : ∀ p ∈ documents, l.resource? p.1 = .ok (some ⟨d, p.2⟩))
    (hopen : ∀ p ∈ documents, isRecursiveAnchor p.2 = true)
    (haddress : ∀ p ∈ documents, s.address p.1 = (p.1, [])) :
    ∃ contents, (root, contents) ∈ documents ∧
      s.lookupRecursive l followed = .ok (contents, s.leave root) := by
  obtain ⟨⟨base, contents⟩, hmem, hbase⟩ := List.mem_map.mp h.base
  have hbase : base = s.base := hbase
  subst hbase
  have hhere : s.address "#" = (s.base, []) := by
    unfold address
    rw [if_pos (by decide)]
    rfl
  have hlookup : s.lookup l "#" followed = .ok (contents, s.leave s.base) :=
    lookup_whole hhere (hresources _ hmem)
  have hstep : s.lookupRecursive l followed =
      outermost l s followed s.outer (contents, s.leave s.base) := by
    rw [lookupRecursive, hlookup]
    exact if_pos (hopen _ hmem)
  have hfirst := h.first
  rw [hstep]
  by_cases houter : s.outer = []
  · rw [houter] at hfirst ⊢
    have hroot : s.base = root := hfirst
    rw [hroot] at hmem ⊢
    exact ⟨contents, hmem, rfl⟩
  · rw [List.getLast?_eq_some_getLast houter, Option.getD_some] at hfirst
    rw [← hfirst]
    exact exists_outermost hresources hopen haddress h.outer houter _

/-- Where all bases have a dynamic anchor, the last one's counts. -/
theorem exists_further {name : String}
    (hanchors : ∀ p ∈ documents, l.anchor? p.1 name = .ok (some ⟨⟨d, p.2⟩, true⟩))
    {bases : List String} (hbases : ∀ b ∈ bases, b ∈ documents.map Prod.fst) (hne : bases ≠ []) :
    ∃ further contents, (bases.getLast hne, contents) ∈ documents ∧
      (bases.filterMapM fun base => do
        return (← l.anchor? base name).filter fun a : Anchor => a.isDynamic : Except Failure _) =
          .ok further ∧
      further.getLast? = some ⟨⟨d, contents⟩, true⟩ := by
  induction bases with
  | nil => exact absurd rfl hne
  | cons b bs ih =>
    obtain ⟨hb, hbs⟩ := List.forall_mem_cons.mp hbases
    obtain ⟨⟨base, contents⟩, hmem, rfl⟩ := List.mem_map.mp hb
    rw [List.filterMapM_cons, hanchors _ hmem]
    by_cases hrest : bs = []
    · subst hrest
      exact ⟨_, contents, hmem, rfl, rfl⟩
    · obtain ⟨further, last, hlast, hfurther, hget⟩ := ih hbs hrest
      rw [hfurther, List.getLast_cons hrest]
      refine ⟨_, last, hlast, rfl, ?_⟩
      rw [List.getLast?_cons, hget]
      rfl

/-- A dynamic reference from below a root leads to the root. -/
theorem Rooted.exists_lookup_dynamic (h : s.Rooted d (documents.map Prod.fst) root)
    (hempty : "" ∉ documents.map Prod.fst)
    (hresources : ∀ p ∈ documents, l.resource? p.1 = .ok (some ⟨d, p.2⟩)) {reference : String} {c : Char}
    {cs : List Char} (haddress : s.address reference = (s.base, c :: cs)) (hslash : c ≠ '/')
    (hanchors : ∀ p ∈ documents,
      l.anchor? p.1 (String.ofList (c :: cs)) = .ok (some ⟨⟨d, p.2⟩, true⟩)) :
    ∃ contents, (root, contents) ∈ documents ∧ s.lookup l reference followed =
      .ok (contents, (s.leave s.base).enter ⟨d, contents⟩) := by
  obtain ⟨⟨base, contents⟩, hmem, hbase⟩ := List.mem_map.mp h.base
  have hbase : base = s.base := hbase
  subst hbase
  rw [lookup_anchor haddress hslash (hresources _ hmem) (hanchors _ hmem)]
  have hleft := h.leave hempty h.base
  have hlast := h.getLast?_outer_leave hempty s.base
  have hne : (s.leave s.base).outer ≠ [] := fun hnil => by
    rw [hnil] at hlast
    cases hlast
  rw [List.getLast?_eq_some_getLast hne, Option.some_inj] at hlast
  obtain ⟨further, target, htarget, hfurther, hget⟩ := exists_further hanchors hleft.outer hne
  rw [hlast] at htarget
  refine ⟨target, htarget, ?_⟩
  unfold ofAnchor
  rw [if_pos rfl, hfurther]
  dsimp only [bind, Except.bind]
  rw [hget]
  rfl

end Outermost

end DocDesk.Schema.Scope
