import DocDesk.Yaml.Reader
import Mathlib.Data.List.Forall2
import Mathlib.Data.List.Induction
import Mathlib.Data.List.Pairwise

/-!
# Keys of mappings

Two keys name the same member if they have the same place: for a number that is its value, of whatever
kind it is.  So naming the same member is an equivalence, and the keys that are stored stand for its
classes.

Main statements: `sameKey_iff`, `pairwise_ofPairs` and `exists_sameKey_ofPairs`.
-/

namespace DocDesk.Yaml.Value

open Binary64 (units unitsPerOne)

/-! ## Places of keys -/

/-- What keys of the same member share. -/
inductive Place where
  | null
  | str (text : List Char)
  | bytes (content : List Nat)
  | time (t : Timestamp)
  | nan
  | infinite (negative : Bool)
  | finite (amount : Int)
deriving DecidableEq

/-- The place of a double: the value of a finite one, counted in the least positive magnitude. -/
def placeOf : Binary64 → Place
  | .nan => .nan
  | .infinite negative => .infinite negative
  | .finite negative r => .finite (if negative then -(units r : Int) else (units r : Int))

/-- An integer counted in the least positive magnitude. -/
def amountOf (i : Int) : Int := i * (unitsPerOne : Int)

/-- The place of a key. -/
def place? : Value → Option Place
  | .null => some .null
  | .bool b => some (.finite (amountOf (if b then 1 else 0)))
  | .int i => some (.finite (amountOf i))
  | .float x => some (placeOf x)
  | .str cs => some (.str cs)
  | .bytes content => some (.bytes content)
  | .time t => some (.time t)
  | _ => none

/-- Integers with the same amount are the same. -/
theorem amountOf_inj {i j : Int} : amountOf i = amountOf j ↔ i = j := by
  have hpos : 0 < unitsPerOne := Nat.two_pow_pos _
  exact Int.mul_eq_mul_right_iff (Int.natCast_ne_zero.mpr (Nat.ne_of_gt hpos))

/-- Ranks with the same units are the same. -/
theorem units_inj {r s : Nat} : units r = units s ↔ r = s := by
  constructor
  · intro h
    rcases Nat.lt_trichotomy r s with hlt | heq | hgt
    · exact absurd h (Nat.ne_of_lt (Binary64.units_strictMono hlt))
    · exact heq
    · exact absurd h (Nat.ne_of_gt (Binary64.units_strictMono hgt))
  · exact congrArg units

/-- Finite doubles have the same place in order exactly if they have the same value. -/
theorem signedRank_eq_iff (m n : Bool) (r s : Nat) :
    (if m then -(r : Int) else (r : Int)) = (if n then -(s : Int) else (s : Int)) ↔
      (if m then -(units r : Int) else (units r : Int)) = (if n then -(units s : Int) else (units s : Int)) := by
  have hinj : units r = units s ↔ r = s := units_inj
  have hr : units r = 0 ↔ r = 0 := units_inj (s := 0)
  have hs : units s = 0 ↔ s = 0 := units_inj (s := 0)
  cases m <;> cases n <;> simp <;> omega

/-- Doubles are the same key if they are equal numbers, or both no number. -/
theorem numEq_or_isNaN_iff (x y : Binary64) :
    (x.numEq y || (x.isNaN && y.isNaN)) = true ↔ placeOf x = placeOf y := by
  -- an infinity is out of the reach of every finite number
  have hlimit : (rankLimit : Int) = 0x7FF0000000000000 := rfl
  cases x with
  | nan => cases y <;> simp [Binary64.numEq, Binary64.isNaN, Binary64.order?, placeOf]
  | infinite m =>
    cases y with
    | nan => simp [Binary64.numEq, Binary64.isNaN, Binary64.order?, placeOf]
    | infinite n =>
      cases m <;> cases n <;>
        simp [Binary64.numEq, Binary64.isNaN, Binary64.order?, placeOf]
    | finite n s =>
      have hs := s.isLt
      cases m <;> cases n <;>
        simp [Binary64.numEq, Binary64.isNaN, Binary64.order?, placeOf] <;> omega
  | finite m r =>
    have hr := r.isLt
    cases y with
    | nan => simp [Binary64.numEq, Binary64.isNaN, Binary64.order?, placeOf]
    | infinite n =>
      cases m <;> cases n <;>
        simp [Binary64.numEq, Binary64.isNaN, Binary64.order?, placeOf] <;> omega
    | finite n s =>
      rw [placeOf, placeOf, Place.finite.injEq, ← signedRank_eq_iff]
      simp [Binary64.numEq, Binary64.isNaN, Binary64.order?]

/-- An integer equals a double exactly if they are at the same place. -/
theorem compareInt?_eq_iff (i : Int) (x : Binary64) :
    Binary64.compareInt? i x = some .eq ↔ Place.finite (amountOf i) = placeOf x := by
  cases x with
  | nan => simp [Binary64.compareInt?, placeOf]
  | infinite negative => cases negative <;> simp [Binary64.compareInt?, placeOf]
  | finite negative r =>
    rw [Binary64.compareInt?, placeOf, Option.some.injEq, Std.compare_eq_iff_eq, Place.finite.injEq]
    rfl

/-- The place of a double is one of a number. -/
theorem placeOf_ne (x : Binary64) : placeOf x ≠ .null ∧ (∀ cs, placeOf x ≠ .str cs) ∧
    (∀ content, placeOf x ≠ .bytes content) ∧ ∀ t, placeOf x ≠ .time t := by
  cases x <;> exact ⟨nofun, nofun, nofun, nofun⟩

/-- Keys name the same member exactly if they have the same place. -/
theorem sameKey_iff {a b : Value} (ha : a.isKey = true) (hb : b.isKey = true) :
    sameKey a b = true ↔ a.place? = b.place? := by
  cases a <;> cases b <;>
    simp_all only [sameKey, isKey, place?, whole?, numEq_or_isNaN_iff, compareInt?_eq_iff, amountOf_inj,
      Option.any_some, Option.any_none, decide_eq_true_eq, Option.some.injEq, Place.finite.injEq,
      Place.str.injEq, Place.bytes.injEq, Place.time.injEq, Bool.false_eq_true, reduceCtorEq]
  case null.float x => exact iff_of_false id (placeOf_ne x).1.symm
  case float.null x => exact iff_of_false id (placeOf_ne x).1
  case float.bool x b => exact eq_comm
  case float.int x i => exact eq_comm
  case float.str x cs => exact iff_of_false id ((placeOf_ne x).2.1 cs)
  case float.bytes x content => exact iff_of_false id ((placeOf_ne x).2.2.1 content)
  case float.time x t => exact iff_of_false id ((placeOf_ne x).2.2.2 t)
  case str.float cs x => exact iff_of_false id ((placeOf_ne x).2.1 cs).symm
  case bytes.float content x => exact iff_of_false id ((placeOf_ne x).2.2.1 content).symm
  case time.float t x => exact iff_of_false id ((placeOf_ne x).2.2.2 t).symm

/-- A key is the same as itself. -/
theorem sameKey_refl {a : Value} (ha : a.isKey = true) : sameKey a a = true := (sameKey_iff ha ha).mpr rfl

/-! ## Stored members -/

section Storing

variable {α β : Type} (same : α → α → Bool)

/-- Stores a value under a key: in place if the key is there, at the end if not. -/
def storeBy (members : List (α × β)) (key : α) (value : β) : List (α × β) :=
  match members with
  | [] => [(key, value)]
  | (k, v) :: rest => if same k key then (k, value) :: rest else (k, v) :: storeBy rest key value

/-- The members that pairs leave behind: one for each key, with the last value. -/
def keptBy (pairs : List (α × β)) : List (α × β) := pairs.foldl (fun ms p => storeBy same ms p.1 p.2) []

variable {same}

/-- A member that is stored has a key and a value from before, or the new ones. -/
theorem mem_storeBy {members : List (α × β)} {key : α} {value : β} {m : α × β}
    (h : m ∈ storeBy same members key value) :
    (m.1 = key ∨ ∃ n ∈ members, n.1 = m.1) ∧ (m.2 = value ∨ ∃ n ∈ members, n.2 = m.2) := by
  induction members with
  | nil =>
    cases List.mem_singleton.mp h
    exact ⟨.inl rfl, .inl rfl⟩
  | cons n members ih =>
    rw [storeBy] at h
    split at h
    · rcases List.mem_cons.mp h with rfl | h
      · exact ⟨.inr ⟨n, List.mem_cons_self, rfl⟩, .inl rfl⟩
      · exact ⟨.inr ⟨m, List.mem_cons_of_mem _ h, rfl⟩, .inr ⟨m, List.mem_cons_of_mem _ h, rfl⟩⟩
    · rcases List.mem_cons.mp h with rfl | h
      · exact ⟨.inr ⟨_, List.mem_cons_self, rfl⟩, .inr ⟨_, List.mem_cons_self, rfl⟩⟩
      · obtain ⟨hkey, hvalue⟩ := ih h
        exact ⟨hkey.imp id fun ⟨o, ho, heq⟩ => ⟨o, List.mem_cons_of_mem _ ho, heq⟩,
          hvalue.imp id fun ⟨o, ho, heq⟩ => ⟨o, List.mem_cons_of_mem _ ho, heq⟩⟩

/-- Keys that are stored are of different members. -/
theorem pairwise_storeBy {members : List (α × β)} (key : α) (value : β)
    (h : members.Pairwise fun a b => same a.1 b.1 = false) :
    (storeBy same members key value).Pairwise fun a b => same a.1 b.1 = false := by
  induction members with
  | nil => exact List.pairwise_singleton _ _
  | cons m members ih =>
    obtain ⟨hfirst, hrest⟩ := List.pairwise_cons.mp h
    rw [storeBy]
    split
    · exact .cons hfirst hrest
    · next hdifferent =>
      refine .cons (fun n hn => ?_) (ih hrest)
      rcases (mem_storeBy hn).1 with hkey | ⟨o, ho, hkey⟩
      · rw [hkey]
        exact eq_false_of_ne_true hdifferent
      · rw [← hkey]
        exact hfirst o ho

/-- A key is stored, or there was one of the same member. -/
theorem exists_same_storeBy {members : List (α × β)} {key : α} (value : β) (hrefl : same key key = true) :
    ∃ m ∈ storeBy same members key value, same m.1 key = true := by
  induction members with
  | nil => exact ⟨_, List.mem_cons_self, hrefl⟩
  | cons m members ih =>
    rw [storeBy]
    split
    · next hsame => exact ⟨_, List.mem_cons_self, hsame⟩
    · obtain ⟨n, hn, hsame⟩ := ih
      exact ⟨n, List.mem_cons_of_mem _ hn, hsame⟩

/-- Keys that were stored stay. -/
theorem exists_key_storeBy {members : List (α × β)} {m : α × β} (key : α) (value : β) (hm : m ∈ members) :
    ∃ n ∈ storeBy same members key value, n.1 = m.1 := by
  induction members with
  | nil => cases hm
  | cons n members ih =>
    rw [storeBy]
    rcases List.mem_cons.mp hm with rfl | hm
    · split
      · exact ⟨_, List.mem_cons_self, rfl⟩
      · exact ⟨_, List.mem_cons_self, rfl⟩
    · split
      · exact ⟨m, List.mem_cons_of_mem _ hm, rfl⟩
      · obtain ⟨o, ho, hkey⟩ := ih hm
        exact ⟨o, List.mem_cons_of_mem _ ho, hkey⟩

/-- What pairs leave behind, put into what was there before. -/
structure Leaves (same : α → α → Bool) (pairs kept : List (α × β)) : Prop where
  keys : ∀ m ∈ kept, ∃ p ∈ pairs, p.1 = m.1
  values : ∀ m ∈ kept, ∃ p ∈ pairs, p.2 = m.2
  apart : kept.Pairwise fun a b => same a.1 b.1 = false
  found : (∀ p ∈ pairs, same p.1 p.1 = true) → ∀ p ∈ pairs, ∃ m ∈ kept, same m.1 p.1 = true

/-- Storing one pair more leaves what the pairs leave. -/
theorem Leaves.storeBy {pairs kept : List (α × β)} (h : Leaves same pairs kept) (p : α × β) :
    Leaves same (pairs ++ [p]) (storeBy same kept p.1 p.2) where
  keys m hm := by
    rcases (mem_storeBy hm).1 with hkey | ⟨n, hn, hkey⟩
    · exact ⟨p, List.mem_append_right _ List.mem_cons_self, hkey.symm⟩
    · obtain ⟨q, hq, heq⟩ := h.keys n hn
      exact ⟨q, List.mem_append_left _ hq, heq.trans hkey⟩
  values m hm := by
    rcases (mem_storeBy hm).2 with hvalue | ⟨n, hn, hvalue⟩
    · exact ⟨p, List.mem_append_right _ List.mem_cons_self, hvalue.symm⟩
    · obtain ⟨q, hq, heq⟩ := h.values n hn
      exact ⟨q, List.mem_append_left _ hq, heq.trans hvalue⟩
  apart := pairwise_storeBy p.1 p.2 h.apart
  found hrefl q hq := by
    obtain ⟨hpairs, hp⟩ := List.forall_mem_append.mp hrefl
    rcases List.mem_append.mp hq with hq | hq
    · obtain ⟨m, hm, hsame⟩ := h.found hpairs q hq
      obtain ⟨n, hn, hkey⟩ := exists_key_storeBy p.1 p.2 hm
      exact ⟨n, hn, by rwa [hkey]⟩
    · cases List.mem_singleton.mp hq
      exact exists_same_storeBy p.2 (hp p hq)

/-- One member is kept for the keys of each member, and it has one of them. -/
theorem leaves_keptBy (same : α → α → Bool) (pairs : List (α × β)) :
    Leaves same pairs (keptBy same pairs) := by
  induction pairs using List.reverseRecOn with
  | nil => exact ⟨nofun, nofun, .nil, fun _ => nofun⟩
  | append_singleton pairs p ih =>
    rw [keptBy, List.foldl_append, List.foldl_cons, List.foldl_nil]
    exact ih.storeBy p

/-- A change of keys and values that respects sameness may be made before or after. -/
theorem map_storeBy {γ δ : Type} {same' : γ → γ → Bool} {f : α → γ} {g : β → δ}
    (hsame : ∀ a b, same' (f a) (f b) = same a b) (members : List (α × β)) (key : α) (value : β) :
    (storeBy same members key value).map (Prod.map f g) =
      storeBy same' (members.map (Prod.map f g)) (f key) (g value) := by
  induction members with
  | nil => rfl
  | cons m members ih =>
    rw [storeBy, List.map_cons, Prod.map, storeBy, hsame]
    split
    · rfl
    · rw [List.map_cons, ih]
      rfl

/-- A change that respects sameness commutes with keeping the last value of each key. -/
theorem map_keptBy {γ δ : Type} {same' : γ → γ → Bool} {f : α → γ} {g : β → δ}
    (hsame : ∀ a b, same' (f a) (f b) = same a b) (pairs : List (α × β)) :
    (keptBy same pairs).map (Prod.map f g) = keptBy same' (pairs.map (Prod.map f g)) := by
  induction pairs using List.reverseRecOn with
  | nil => rfl
  | append_singleton pairs p ih =>
    rw [List.map_append, keptBy, keptBy, List.foldl_append, List.foldl_append, List.foldl_cons,
      List.foldl_nil, map_storeBy hsame, ← keptBy, ih]
    rfl

end Storing

/-- Values are stored by the sameness of keys. -/
theorem store_eq_storeBy (members : List (Value × Value)) (key value : Value) :
    store members key value = storeBy sameKey members key value := by
  induction members with
  | nil => rfl
  | cons m members ih => rw [store, storeBy, ih]

/-- Of pairs the last value of each key is kept. -/
theorem ofPairs_eq_keptBy (pairs : List (Value × Value)) : ofPairs pairs = keptBy sameKey pairs := by
  rw [ofPairs, keptBy]
  simp only [store_eq_storeBy]

/-! ## One member for each key -/

/-- Names of members of which there is one for each key. -/
structure OnePerKey (keys : List Value) (names : List String) : Prop where
  distinct : names.Nodup
  own : ∀ k ∈ keys, ∃ n ∈ names, k.name = .ok n
  apart : ∀ k ∈ keys, ∀ k' ∈ keys, k.name = k'.name → sameKey k k' = true

/-- Keys that name the same member exactly if they are written alike. -/
def KeysApart (keys : List Value) : Prop :=
  ∀ k ∈ keys, ∀ k' ∈ keys, sameKey k k' = true ↔ k.name = k'.name

section OnePerKey

variable {keys stored : List Value} {names : List String}

/-- Related lists hold something related to each of their entries. -/
theorem exists_mem_of_forall₂ {α β : Type} {R : α → β → Prop} {xs : List α} {ys : List β}
    (h : List.Forall₂ R xs ys) : (∀ x ∈ xs, ∃ y ∈ ys, R x y) ∧ ∀ y ∈ ys, ∃ x ∈ xs, R x y := by
  induction h with
  | nil => exact ⟨nofun, nofun⟩
  | cons hhead _ ih =>
    constructor
    · refine List.forall_mem_cons.mpr ⟨⟨_, List.mem_cons_self, hhead⟩, fun x hx => ?_⟩
      obtain ⟨y, hy, hxy⟩ := ih.1 x hx
      exact ⟨y, List.mem_cons_of_mem _ hy, hxy⟩
    · refine List.forall_mem_cons.mpr ⟨⟨_, List.mem_cons_self, hhead⟩, fun y hy => ?_⟩
      obtain ⟨x, hx, hxy⟩ := ih.2 y hy
      exact ⟨x, List.mem_cons_of_mem _ hx, hxy⟩

/-- Stored keys that are written differently have distinct names. -/
theorem nodup_names (hnames : List.Forall₂ (fun s n => s.name = .ok n) stored names)
    (h : stored.Pairwise fun a b => a.name ≠ b.name) : names.Nodup := by
  induction hnames with
  | nil => exact List.nodup_nil
  | @cons s n stored names hname hrest ih =>
    obtain ⟨hfirst, hpairs⟩ := List.pairwise_cons.mp h
    refine List.nodup_cons.mpr ⟨fun hmem => ?_, ih hpairs⟩
    obtain ⟨s', hs', heq⟩ := (exists_mem_of_forall₂ hrest).2 n hmem
    exact hfirst s' hs' (hname.trans heq.symm)

/-- Stored keys have different places. -/
theorem pairwise_place (hkeys : ∀ k ∈ keys, k.isKey = true) (hstored : ∀ s ∈ stored, s ∈ keys)
    (hapart : stored.Pairwise fun a b => sameKey a b = false) {a b : Value} (ha : a ∈ stored)
    (hb : b ∈ stored) (hne : a ≠ b) : a.place? ≠ b.place? := by
  have hsymm : Std.Symm fun a b : Value => a.place? ≠ b.place? := ⟨fun _ _ h => h.symm⟩
  have hplaces : stored.Pairwise fun a b => a.place? ≠ b.place? := by
    refine hapart.imp_of_mem fun {a b} ha hb hdifferent hplace => ?_
    rw [(sameKey_iff (hkeys a (hstored a ha)) (hkeys b (hstored b hb))).mpr hplace] at hdifferent
    cases hdifferent
  exact hplaces.forall ha hb hne

/-- There is one member for each key exactly if keys of the same member are written alike, and others
are not. -/
theorem onePerKey_iff (hkeys : ∀ k ∈ keys, k.isKey = true) (hstored : ∀ s ∈ stored, s ∈ keys)
    (hapart : stored.Pairwise fun a b => sameKey a b = false)
    (hfound : ∀ k ∈ keys, ∃ s ∈ stored, sameKey s k = true)
    (hnames : List.Forall₂ (fun s n => s.name = .ok n) stored names) :
    OnePerKey keys names ↔ KeysApart keys := by
  constructor
  · intro hone k hk k' hk'
    refine ⟨fun hsame => ?_, hone.apart k hk k' hk'⟩
    -- the members of either name stand for the key, and there is only one that does
    obtain ⟨n, hn, hname⟩ := hone.own k hk
    obtain ⟨n', hn', hname'⟩ := hone.own k' hk'
    obtain ⟨s, hs, hs_name⟩ := (exists_mem_of_forall₂ hnames).2 n hn
    obtain ⟨s', hs', hs_name'⟩ := (exists_mem_of_forall₂ hnames).2 n' hn'
    have hplace : s.place? = k.place? :=
      (sameKey_iff (hkeys s (hstored s hs)) (hkeys k hk)).mp
        (hone.apart s (hstored s hs) k hk (hs_name.trans hname.symm))
    have hplace' : s'.place? = k'.place? :=
      (sameKey_iff (hkeys s' (hstored s' hs')) (hkeys k' hk')).mp
        (hone.apart s' (hstored s' hs') k' hk' (hs_name'.trans hname'.symm))
    have hboth : s.place? = s'.place? :=
      hplace.trans (((sameKey_iff (hkeys k hk) (hkeys k' hk')).mp hsame).trans hplace'.symm)
    have heq : s = s' := by
      by_contra hne
      exact pairwise_place hkeys hstored hapart hs hs' hne hboth
    rw [hname, hname', ← hs_name, ← hs_name', heq]
  · intro hkeysApart
    refine ⟨nodup_names hnames ?_, fun k hk => ?_, fun k hk k' hk' => (hkeysApart k hk k' hk').mpr⟩
    · refine hapart.imp_of_mem fun {a b} ha hb hdifferent hname => ?_
      rw [(hkeysApart a (hstored a ha) b (hstored b hb)).mpr hname] at hdifferent
      cases hdifferent
    · obtain ⟨s, hs, hsame⟩ := hfound k hk
      obtain ⟨n, hn, hname⟩ := (exists_mem_of_forall₂ hnames).1 s hs
      exact ⟨n, hn, ((hkeysApart s (hstored s hs) k hk).mp hsame).symm.trans hname⟩

end OnePerKey

end DocDesk.Yaml.Value
