import AuthSec.Lib.Except
import AuthSec.Lib.Sorting
import Mathlib.Data.Finmap
import Mathlib.Data.String.Basic

/-!
# Maps and sets of strings

Go maps with string keys, and the sorted lists without repetition that the package uses for sets
of names.  `sortedUnique_eq_iff`: such a list stands for the set of its elements.
-/

namespace AuthSec

open List

/-! ## Maps -/

/-- A Go map with string keys. -/
abbrev GoMap (V : Type) : Type :=
  Finmap fun _ : String => V

namespace GoMap

variable {V : Type}

/-- The value at a key, if there is one. -/
def get? (m : GoMap V) (k : String) : Option V :=
  m.lookup k

/-- `m[k]` for a map of strings: the empty string where there is none. -/
def str (m : GoMap String) (k : String) : String :=
  (m.get? k).getD ""

lemma nodup_pairs (l : AList fun _ : String => V) :
    ((l.entries.map fun e => (e.1, e.2)).map Prod.fst).Nodup := by
  rw [List.map_map]
  exact l.nodupKeys

/-- The keys and values in the order of the keys. -/
def sortedPairs (m : GoMap V) : List (String × V) :=
  m.liftOn (fun l => sortOn Prod.fst (l.entries.map fun e => (e.1, e.2))) fun l _ hperm =>
    sortOn_congr (hperm.map _) (nodup_pairs l)

/-- The map with these entries, later ones winning. -/
def ofList (l : List (String × V)) : GoMap V :=
  l.foldl (fun m e => m.insert e.1 e.2) ∅

/-- The entries that satisfy a condition on the key. -/
def filterKeys (f : String → Bool) (m : GoMap V) : GoMap V :=
  ofList (m.sortedPairs.filter fun e => f e.1)

@[simp]
lemma get?_empty (k : String) : get? (∅ : GoMap V) k = none :=
  Finmap.lookup_empty k

@[simp]
lemma get?_insert (m : GoMap V) (k : String) (v : V) : get? (m.insert k v) k = some v :=
  Finmap.lookup_insert m

lemma get?_insert_ne (m : GoMap V) {k k' : String} (v : V) (h : k ≠ k') :
    get? (m.insert k' v) k = m.get? k :=
  Finmap.lookup_insert_of_ne m h

lemma ext_get? {m m' : GoMap V} (h : ∀ k, m.get? k = m'.get? k) : m = m' :=
  Finmap.ext_lookup h

lemma mem_sortedPairs (m : GoMap V) (k : String) (v : V) :
    (k, v) ∈ m.sortedPairs ↔ m.get? k = some v := by
  induction m using Finmap.induction_on with
  | H l =>
      rw [get?, Finmap.lookup_toFinmap]
      change (k, v) ∈ sortOn Prod.fst (l.entries.map fun e => (e.1, e.2)) ↔ l.entries.dlookup k = some v
      rw [mem_sortOn, ← Option.mem_def, mem_dlookup_iff l.nodupKeys]
      constructor
      · intro h
        obtain ⟨e, he, hpair⟩ := mem_map.1 h
        obtain ⟨rfl, rfl⟩ := Prod.mk.inj hpair
        exact he
      · intro h
        exact mem_map.2 ⟨⟨k, v⟩, h, rfl⟩

lemma nodup_sortedPairs (m : GoMap V) : (m.sortedPairs.map Prod.fst).Nodup := by
  induction m using Finmap.induction_on with
  | H l => exact nodup_map_sortOn (nodup_pairs l)

lemma sortedPairs_strict (m : GoMap V) : m.sortedPairs.Pairwise fun e e' => e.1 < e'.1 := by
  induction m using Finmap.induction_on with
  | H l => exact sortOn_strict (nodup_pairs l)

lemma get?_foldl_insert (l : List (String × V)) (hkeys : (l.map Prod.fst).Nodup) (m : GoMap V)
    (k : String) (v : V) :
    get? (l.foldl (fun m e => m.insert e.1 e.2) m) k = some v ↔
      (k, v) ∈ l ∨ k ∉ l.map Prod.fst ∧ m.get? k = some v := by
  induction l generalizing m with
  | nil => simp
  | cons e l ih =>
      obtain ⟨hfresh, hkeys⟩ := nodup_cons.1 hkeys
      rw [foldl_cons, ih hkeys]
      by_cases hk : k = e.1
      · subst hk
        have hnot : (e.1, v) ∉ l := fun hmem =>
          hfresh (mem_map.2 ⟨_, hmem, rfl⟩)
        simp only [get?_insert, mem_cons, map_cons, not_or, Option.some.injEq]
        constructor
        · rintro (hmem | ⟨-, rfl⟩)
          · exact absurd hmem hnot
          · exact Or.inl (Or.inl rfl)
        · rintro ((heq | hmem) | ⟨⟨hne, -⟩, -⟩)
          · exact Or.inr ⟨hfresh, by rw [← heq]⟩
          · exact absurd hmem hnot
          · exact absurd trivial hne
      · have hne : (k, v) ≠ e := fun heq => hk (by rw [← heq])
        simp [get?_insert_ne m e.2 hk, hk, hne]

/-- With distinct keys the entries are what the map holds. -/
lemma get?_ofList {l : List (String × V)} (hkeys : (l.map Prod.fst).Nodup) (k : String) (v : V) :
    get? (ofList l) k = some v ↔ (k, v) ∈ l := by
  simp [ofList, get?_foldl_insert l hkeys]

/-- The last entry of a key is what the map holds. -/
lemma get?_ofList_eq (l : List (String × V)) (k : String) :
    get? (ofList l) k = ((l.filter (·.1 = k)).getLast?).map Prod.snd := by
  induction l using List.reverseRecOn with
  | nil => rfl
  | append_singleton l e ih =>
      rw [ofList, foldl_append, foldl_cons, foldl_nil, ← ofList, filter_append]
      by_cases hk : e.1 = k
      · subst hk
        simp
      · rw [get?_insert_ne _ _ (Ne.symm hk), ih]
        simp [hk]

/-- A map of values that were translated. -/
lemma get?_ofList_map {W : Type} (f : V → W) (l : List (String × V)) (k : String) :
    get? (ofList (l.map fun e => (e.1, f e.2))) k = (get? (ofList l) k).map f := by
  rw [get?_ofList_eq, get?_ofList_eq, filter_map, getLast?_map, Option.map_map, Option.map_map]
  rfl

/-- When entries of one key agree, the entries are what the map holds. -/
lemma get?_ofList_of_agree {l : List (String × V)}
    (h : ∀ e ∈ l, ∀ e' ∈ l, e.1 = e'.1 → e = e') (k : String) (v : V) :
    get? (ofList l) k = some v ↔ (k, v) ∈ l := by
  rw [get?_ofList_eq, Option.map_eq_some_iff]
  constructor
  · rintro ⟨e, he, rfl⟩
    obtain ⟨hmem, hk⟩ := mem_filter.1 (mem_of_getLast? he)
    rw [← of_decide_eq_true hk]
    exact hmem
  · intro hmem
    have hfilter : (k, v) ∈ l.filter (·.1 = k) := mem_filter.2 ⟨hmem, by simp⟩
    obtain ⟨e, he⟩ := Option.isSome_iff_exists.1
      (getLast?_isSome.2 (ne_nil_of_mem hfilter))
    obtain ⟨hemem, hk⟩ := mem_filter.1 (mem_of_getLast? he)
    have heq := h e hemem (k, v) hmem (of_decide_eq_true hk)
    exact ⟨e, he, by rw [heq]⟩

lemma ofList_perm_of_agree {l l' : List (String × V)}
    (h : ∀ e ∈ l, ∀ e' ∈ l, e.1 = e'.1 → e = e') (hperm : l.Perm l') : ofList l = ofList l' := by
  have h' : ∀ e ∈ l', ∀ e' ∈ l', e.1 = e'.1 → e = e' := fun e he e' he' =>
    h e (hperm.mem_iff.2 he) e' (hperm.mem_iff.2 he')
  refine ext_get? fun k => Option.ext fun v => ?_
  rw [get?_ofList_of_agree h, get?_ofList_of_agree h', hperm.mem_iff]

lemma ofList_perm {l l' : List (String × V)} (hkeys : (l.map Prod.fst).Nodup) (h : l.Perm l') :
    ofList l = ofList l' := by
  have hkeys' := (h.map Prod.fst).nodup_iff.1 hkeys
  refine ext_get? fun k => Option.ext fun v => ?_
  rw [get?_ofList hkeys, get?_ofList hkeys', h.mem_iff]

/-- A loop of writes under distinct keys, each of which finds under its key what was there before
the loop.  What each write leaves under its key stays. -/
lemma foldlM_writes {U ε : Type} {key : U → String} {write : GoMap V → U → Except ε (GoMap V)}
    {P : U → Option V → Prop} {us : List U} {m₀ : GoMap V} (hkeys : (us.map key).Nodup)
    (hwrite : ∀ u ∈ us, ∀ m : GoMap V, m.get? (key u) = m₀.get? (key u) →
      ∃ m', write m u = .ok m' ∧ P u (m'.get? (key u)) ∧ ∀ k, k ≠ key u → m'.get? k = m.get? k) :
    ∃ m', us.foldlM write m₀ = .ok m' ∧ (∀ u ∈ us, P u (m'.get? (key u))) ∧
      ∀ k, k ∉ us.map key → m'.get? k = m₀.get? k := by
  induction us using List.reverseRecOn with
  | nil => exact ⟨m₀, rfl, fun u hu => absurd hu not_mem_nil, fun k _ => rfl⟩
  | append_singleton us u ih =>
      rw [map_append, map_singleton, nodup_append] at hkeys
      obtain ⟨hkeys, -, hfresh⟩ := hkeys
      have hu : key u ∉ us.map key := fun h => hfresh _ h _ (mem_singleton.2 rfl) rfl
      obtain ⟨m, hm, hP, hrest⟩ := ih hkeys fun v hv => hwrite v (mem_append_left _ hv)
      obtain ⟨m', hm', hPu, hother⟩ :=
        hwrite u (mem_append_right _ (mem_singleton.2 rfl)) m (hrest _ hu)
      refine ⟨m', ?_, ?_, ?_⟩
      · rw [foldlM_append, hm, ok_bind, foldlM_cons, hm', ok_bind]
        rfl
      · intro v hv
        rcases mem_append.1 hv with hv | hv
        · rw [hother _ fun h => hu (h ▸ mem_map.2 ⟨v, hv, rfl⟩)]
          exact hP v hv
        · rw [mem_singleton.1 hv]
          exact hPu
      · intro k hk
        rw [map_append, map_singleton, mem_append, mem_singleton, not_or] at hk
        rw [hother k hk.2, hrest k hk.1]

end GoMap

/-! ## Sorted lists without repetition -/

/-- Drops an element that equals the next one. -/
def uniq {α : Type} [DecidableEq α] : List α → List α
  | a :: b :: l => if a = b then uniq (b :: l) else a :: uniq (b :: l)
  | l => l

/-- `sortedUnique`. -/
def sortedUnique (l : List String) : List String :=
  uniq (sortOn id l)

/-- `sortedKeys`. -/
def sortedKeys {V : Type} (m : GoMap V) : List String :=
  m.sortedPairs.map Prod.fst

section

variable {α κ : Type} [DecidableEq α] [LinearOrder κ] {key : α → κ}

lemma mem_uniq (l : List α) (x : α) : x ∈ uniq l ↔ x ∈ l := by
  induction l with
  | nil => rfl
  | cons a l ih =>
      cases l with
      | nil => rfl
      | cons b l =>
          rw [uniq]
          split_ifs with hab
          · subst hab
            simp [ih]
          · simp [ih]

lemma uniq_strict (hkey : Function.Injective key) {l : List α}
    (h : l.Pairwise fun a b => key a ≤ key b) : (uniq l).Pairwise fun a b => key a < key b := by
  induction l with
  | nil => exact List.Pairwise.nil
  | cons a l ih =>
      cases l with
      | nil => exact pairwise_singleton _ a
      | cons b l =>
          obtain ⟨ha, hl⟩ := pairwise_cons.1 h
          rw [uniq]
          split_ifs with hab
          · exact ih hl
          · refine pairwise_cons.2 ⟨fun x hx => ?_, ih hl⟩
            have hlt : key a < key b :=
              lt_of_le_of_ne (ha b (mem_cons_self ..)) fun heq => hab (hkey heq)
            rcases mem_cons.1 ((mem_uniq _ x).1 hx) with rfl | hx
            · exact hlt
            · exact hlt.trans_le ((pairwise_cons.1 hl).1 x hx)

omit [DecidableEq α] in
/-- A strictly increasing list is determined by its elements. -/
lemma eq_of_strict {l l' : List α} (h : l.Pairwise fun a b => key a < key b)
    (h' : l'.Pairwise fun a b => key a < key b) (hmem : ∀ x, x ∈ l ↔ x ∈ l') : l = l' := by
  have hnodup : ∀ {l : List α}, (l.Pairwise fun a b => key a < key b) → l.Nodup := by
    intro l hl
    refine hl.imp fun {a b} hlt heq => ?_
    subst heq
    exact lt_irrefl _ hlt
  refine ((perm_ext_iff_of_nodup (hnodup h) (hnodup h')).2 hmem).eq_of_pairwise ?_ h h'
  intro a b _ _ hab hba
  exact absurd hab hba.asymm

/-- Sorted by a key that tells the elements apart and without repetition, a list stands for the set
of its elements. -/
lemma uniq_sortOn_eq_iff (hkey : Function.Injective key) {l l' : List α} :
    uniq (sortOn key l) = uniq (sortOn key l') ↔ ∀ x, x ∈ l ↔ x ∈ l' := by
  have hmem : ∀ l x, x ∈ uniq (sortOn key l) ↔ x ∈ l := fun l x => by rw [mem_uniq, mem_sortOn]
  constructor
  · intro h x
    rw [← hmem l, ← hmem l', h]
  · intro h
    refine eq_of_strict (uniq_strict hkey (sortOn_sorted key l))
      (uniq_strict hkey (sortOn_sorted key l')) fun x => ?_
    rw [hmem, hmem, h]

end

@[simp]
lemma mem_sortedUnique (l : List String) (x : String) : x ∈ sortedUnique l ↔ x ∈ l := by
  rw [sortedUnique, mem_uniq, mem_sortOn]

/-- Sorting without duplicates forgets the order and the counts, and nothing else. -/
theorem sortedUnique_eq_iff {l l' : List String} :
    sortedUnique l = sortedUnique l' ↔ ∀ x, x ∈ l ↔ x ∈ l' :=
  uniq_sortOn_eq_iff Function.injective_id

end AuthSec
