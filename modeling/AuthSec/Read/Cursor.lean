import AuthSec.Canonical.Hash
import AuthSec.Go.Collections

/-!
# Cursors of lists

A cursor carries the hash of the filters that its list was asked for, and is refused for other
filters.  The hash covers the names and values, sorted, each behind a separator of its own.

* `filterText_eq_iff`: the filters can be read off the text that is hashed, if no name holds the
  first separator, no value the second, and no value but the least of a name starts with the third;
* `filterHash_eq_iff`: under the same condition the hash tells filters apart.
-/

namespace AuthSec

open List

/-- `url.Values`: the values of a query, by name.  Names and values are Unicode texts here; a query
can also hold bytes that are no UTF-8. -/
abbrev UrlValues := GoMap (List String)

/-- `nonFilterParams`. -/
def nonFilterParams : List String :=
  ["cursor", "rev", "limit", "sort", "facets", "include"]

/-- The filters of a query in the order they are hashed in: names sorted, values sorted. -/
def filterEntries (vals : UrlValues) : List (String × List String) :=
  (vals.sortedPairs.filter fun e => e.1 ∉ nonFilterParams).map fun e => (e.1, sortOn id e.2)

/-- The separators behind a name, behind a value and behind the values of a name. -/
def nameSep : Char := '\x00'
def valueSep : Char := '\x1f'
def entrySep : Char := '\x1e'

/-- The text of the values of a name. -/
def valuesText (vs : List String) : List Char :=
  vs.flatMap fun v => v.toList ++ [valueSep]

/-- What is hashed for a name and its values. -/
def entryText (e : String × List String) : List Char :=
  e.1.toList ++ nameSep :: (valuesText e.2 ++ [entrySep])

/-- The text that `FilterHash` hashes. -/
def filterText (vals : UrlValues) : String :=
  String.ofList ((filterEntries vals).flatMap entryText)

section

variable [Sha256]

/-- The first half of a digest, as text. -/
def truncatedHash (text : String) : String :=
  String.ofList ((hexEncode (Sha256.sum (utf8 text))).toList.take 32)

/-- `FilterHash`. -/
def filterHash (vals : UrlValues) : String :=
  truncatedHash (filterText vals)

end

/-! ## The context of a cursor -/

/-- What a cursor is bound to: the fields of `Cursor` that are also in `CursorContext`. -/
structure CursorContext where
  ws : String
  route : String
  filter : String
  sort : String
  deriving DecidableEq

/-- The context check of `OpenCursor`. -/
def checkContext (c want : CursorContext) : Except String Unit :=
  if c.ws ≠ want.ws then .error "Cursor belongs to another workspace."
  else if c.route ≠ want.route then .error "Cursor belongs to another route."
  else if c.filter ≠ want.filter then .error "Cursor was issued for a different filter set."
  else if c.sort ≠ want.sort then .error "Cursor was issued for a different sort."
  else .ok ()

lemma checkContext_eq_ok {c want : CursorContext} : checkContext c want = .ok () ↔ c = want := by
  unfold checkContext
  cases c
  cases want
  split_ifs <;> simp_all

/-! ## Filters that are the same -/

/-- Apart from the positioning parameters, the queries have the same names, each with the same
values in some order. -/
def SameFilters (vals vals' : UrlValues) : Prop :=
  ∀ name, name ∉ nonFilterParams →
    (vals.get? name).map Multiset.ofList = (vals'.get? name).map Multiset.ofList

/-- Every name of the query has a value. -/
def HasValues (vals : UrlValues) : Prop :=
  ∀ name, vals.get? name ≠ some []

lemma hasValues_ofList {l : List (String × List String)} (hkeys : (l.map Prod.fst).Nodup)
    (h : ∀ e ∈ l, e.2 ≠ []) : HasValues (GoMap.ofList l) :=
  fun name hget => h _ ((GoMap.get?_ofList hkeys name []).1 hget) rfl

lemma mem_filterEntries {vals : UrlValues} {name : String} {ws : List String} :
    (name, ws) ∈ filterEntries vals ↔
      name ∉ nonFilterParams ∧ (vals.get? name).map (sortOn id) = some ws := by
  simp only [filterEntries, mem_map, mem_filter, Prod.exists, GoMap.mem_sortedPairs,
    decide_eq_true_eq, Prod.mk.injEq, Option.map_eq_some_iff]
  constructor
  · rintro ⟨name', vs, ⟨hget, hname⟩, rfl, hws⟩
    exact ⟨hname, vs, hget, hws⟩
  · rintro ⟨hname, vs, hget, hws⟩
    exact ⟨name, vs, ⟨hget, hname⟩, rfl, hws⟩

lemma filterEntries_strict (vals : UrlValues) :
    (filterEntries vals).Pairwise fun e e' => e.1 < e'.1 :=
  pairwise_map.2 ((GoMap.sortedPairs_strict vals).filter _)

lemma map_sortOn_eq_iff {o o' : Option (List String)} :
    o.map (sortOn id) = o'.map (sortOn id) ↔ o.map Multiset.ofList = o'.map Multiset.ofList := by
  cases o <;> cases o' <;>
    simp [sortOn_eq_iff_perm_of_injective Function.injective_id]

/-- The sorted filters of two queries agree when the filters do. -/
lemma filterEntries_eq_iff {vals vals' : UrlValues} :
    filterEntries vals = filterEntries vals' ↔ SameFilters vals vals' := by
  constructor
  · intro h name hname
    refine map_sortOn_eq_iff.1 (Option.ext fun ws => ?_)
    have hmem : (name, ws) ∈ filterEntries vals ↔ (name, ws) ∈ filterEntries vals' := by rw [h]
    rw [mem_filterEntries, mem_filterEntries] at hmem
    simpa [hname] using hmem
  · intro h
    refine eq_of_strict (filterEntries_strict vals) (filterEntries_strict vals') ?_
    rintro ⟨name, ws⟩
    rw [mem_filterEntries, mem_filterEntries]
    refine and_congr_right fun hname => ?_
    rw [map_sortOn_eq_iff.2 (h name hname)]

/-! ## The text that is hashed -/

/-- A text that can be cut: the name is without the first separator, the values are without the
second, and only the first of them may start with the third. -/
@[mk_iff]
structure CuttableEntry (e : String × List String) : Prop where
  name : nameSep ∉ e.1.toList
  values : ∀ v ∈ e.2, valueSep ∉ v.toList
  later : ∀ v ∈ e.2.tail, v.toList.head? ≠ some entrySep

/-- No filter name holds U+0000, no value U+001F, and of the values of a name only the least may
start with U+001E. -/
def Cuttable (vals : UrlValues) : Prop :=
  ∀ name vs, name ∉ nonFilterParams → vals.get? name = some vs →
    CuttableEntry (name, sortOn id vs)

instance (e : String × List String) : Decidable (CuttableEntry e) :=
  decidable_of_iff' _ (cuttableEntry_iff e)

lemma cuttable_iff {vals : UrlValues} :
    Cuttable vals ↔ ∀ e ∈ filterEntries vals, CuttableEntry e := by
  constructor
  · rintro hcut ⟨name, ws⟩ he
    obtain ⟨hname, hget⟩ := mem_filterEntries.1 he
    obtain ⟨vs, hvs, rfl⟩ := Option.map_eq_some_iff.1 hget
    exact hcut name vs hname hvs
  · intro h name vs hname hget
    exact h _ (mem_filterEntries.2 ⟨hname, by rw [hget, Option.map_some]⟩)

lemma valuesText_cons (v : String) (vs : List String) (us : List Char) :
    valuesText (v :: vs) ++ us = v.toList ++ valueSep :: (valuesText vs ++ us) := by
  simp [valuesText]

lemma entrySep_ne {v : String} (hv : v.toList.head? ≠ some entrySep) {vs : List String}
    {us us' : List Char} : entrySep :: us ≠ valuesText (v :: vs) ++ us' := by
  rw [valuesText_cons]
  cases hchars : v.toList with
  | nil => exact fun h => absurd (List.cons.inj h).1 (by decide)
  | cons c cs =>
      rw [hchars] at hv
      exact fun h => hv (by rw [head?_cons, (List.cons.inj h).1])

/-- Values behind the first one end where the third separator stands. -/
lemma valuesText_inj {vs vs' : List String} {us us' : List Char}
    (hvs : ∀ v ∈ vs, valueSep ∉ v.toList ∧ v.toList.head? ≠ some entrySep)
    (hvs' : ∀ v ∈ vs', valueSep ∉ v.toList ∧ v.toList.head? ≠ some entrySep)
    (h : valuesText vs ++ entrySep :: us = valuesText vs' ++ entrySep :: us') :
    vs = vs' ∧ us = us' := by
  induction vs generalizing vs' with
  | nil =>
      cases vs' with
      | nil => exact ⟨rfl, (List.cons.inj h).2⟩
      | cons v' vs' => exact absurd h (entrySep_ne (hvs' v' (mem_cons_self ..)).2)
  | cons v vs ih =>
      obtain ⟨⟨hv, hhead⟩, hvs⟩ := forall_mem_cons.1 hvs
      cases vs' with
      | nil => exact absurd h.symm (entrySep_ne hhead)
      | cons v' vs' =>
          obtain ⟨⟨hv', -⟩, hvs'⟩ := forall_mem_cons.1 hvs'
          rw [valuesText_cons, valuesText_cons] at h
          obtain ⟨hfirst, hrest⟩ := append_sep_inj hv hv' h
          obtain ⟨rfl, hus⟩ := ih hvs hvs' hrest
          exact ⟨by rw [String.toList_inj.1 hfirst], hus⟩

/-- A name and its values can be read off a text that starts with them. -/
lemma entryText_inj {e e' : String × List String} {us us' : List Char} (he : CuttableEntry e)
    (he' : CuttableEntry e') (hne : e.2 ≠ []) (hne' : e'.2 ≠ [])
    (h : entryText e ++ us = entryText e' ++ us') : e = e' ∧ us = us' := by
  obtain ⟨name, vs⟩ := e
  obtain ⟨name', vs'⟩ := e'
  obtain ⟨v, vs, rfl⟩ := exists_cons_of_ne_nil hne
  obtain ⟨v', vs', rfl⟩ := exists_cons_of_ne_nil hne'
  simp only [entryText, append_assoc, cons_append, nil_append] at h
  obtain ⟨hname, hvalues⟩ := append_sep_inj he.name he'.name h
  rw [valuesText_cons, valuesText_cons] at hvalues
  obtain ⟨hv, hvs⟩ := forall_mem_cons.1 he.values
  obtain ⟨hv', hvs'⟩ := forall_mem_cons.1 he'.values
  obtain ⟨hfirst, hrest⟩ := append_sep_inj hv hv' hvalues
  obtain ⟨rfl, hus⟩ := valuesText_inj (fun w hw => ⟨hvs w hw, he.later w hw⟩)
    (fun w hw => ⟨hvs' w hw, he'.later w hw⟩) hrest
  obtain rfl : name = name' := String.toList_inj.1 hname
  rw [String.toList_inj.1 hfirst]
  exact ⟨rfl, hus⟩

lemma HasValues.ne_nil {vals : UrlValues} (hvals : HasValues vals) {e : String × List String}
    (he : e ∈ filterEntries vals) : e.2 ≠ [] := by
  obtain ⟨-, hget⟩ := mem_filterEntries.1 he
  obtain ⟨vs, hget, hws⟩ := Option.map_eq_some_iff.1 hget
  intro hnil
  have hlength : vs.length = 0 := by rw [← length_sortOn id vs, hws, hnil, length_nil]
  exact hvals e.1 (by rw [hget, length_eq_zero_iff.1 hlength])

/-- The filters can be read off the text that is hashed. -/
lemma filterText_eq_iff {vals vals' : UrlValues} (hvals : HasValues vals) (hvals' : HasValues vals')
    (hcut : Cuttable vals) (hcut' : Cuttable vals') :
    filterText vals = filterText vals' ↔ SameFilters vals vals' := by
  rw [← filterEntries_eq_iff, filterText, filterText, String.ofList_inj]
  refine ⟨fun h => ?_, fun h => by rw [h]⟩
  refine flatMap_code_inj (P := fun e => CuttableEntry e ∧ e.2 ≠ []) (fun e => ?_)
    (fun e e' us us' he he' => entryText_inj he.1 he'.1 he.2 he'.2)
    (fun e he => ⟨cuttable_iff.1 hcut e he, hvals.ne_nil he⟩)
    (fun e he => ⟨cuttable_iff.1 hcut' e he, hvals'.ne_nil he⟩) h
  simp [entryText]

section

variable [Sha256]

/-- A cursor of a list is accepted for a query on the same workspace, route and sort exactly when
the filters are the same, if the text of both queries can be cut and their hashes do not collide. -/
theorem filterHash_eq_iff {vals vals' : UrlValues} (hvals : HasValues vals)
    (hvals' : HasValues vals') (hcut : Cuttable vals) (hcut' : Cuttable vals')
    (hhash : truncatedHash (filterText vals) = truncatedHash (filterText vals') →
      filterText vals = filterText vals') (ws route sort : String) :
    (filterHash vals = filterHash vals' ↔ SameFilters vals vals') ∧
      (checkContext ⟨ws, route, filterHash vals, sort⟩ ⟨ws, route, filterHash vals', sort⟩ = .ok () ↔
        SameFilters vals vals') := by
  have hsame : filterHash vals = filterHash vals' ↔ SameFilters vals vals' := by
    rw [← filterText_eq_iff hvals hvals' hcut hcut']
    exact ⟨hhash, fun h => by rw [filterHash, filterHash, h]⟩
  refine ⟨hsame, ?_⟩
  rw [checkContext_eq_ok, ← hsame]
  simp

end

/-- Two pages of one list, and the list for another kind. -/
theorem filterHash_eq_iff_kinds :
    let _ : Sha256 := ⟨id⟩
    let first : UrlValues := GoMap.ofList [("kind", ["role", "user"])]
    let next : UrlValues := GoMap.ofList [("cursor", ["c"]), ("kind", ["user", "role"])]
    let other : UrlValues := GoMap.ofList [("kind", ["role"])]
    (filterHash first = filterHash next ↔ SameFilters first next) ∧
      (filterHash first = filterHash other ↔ SameFilters first other) := by
  intro _ first next other
  have hfirst : HasValues first := hasValues_ofList (by decide) (by decide)
  have hcut : Cuttable first := cuttable_iff.2 (by decide +kernel)
  refine ⟨(filterHash_eq_iff hfirst (hasValues_ofList (by decide) (by decide)) hcut
      (cuttable_iff.2 (by decide +kernel)) (fun _ => by decide +kernel) "" "" "").1,
    (filterHash_eq_iff hfirst (hasValues_ofList (by decide) (by decide)) hcut
      (cuttable_iff.2 (by decide +kernel)) (fun h => absurd h (by decide +kernel)) "" "" "").1⟩

/-- Two values of a filter, and one value that holds both with the separator between them. -/
theorem filterHash_joined_values :
    ¬SameFilters (GoMap.ofList [("tag", ["x", "y"])]) (GoMap.ofList [("tag", ["x\x1fy"])]) ∧
      ∀ sum : Bytes → Bytes,
        let _ : Sha256 := ⟨sum⟩
        filterHash (GoMap.ofList [("tag", ["x", "y"])]) =
          filterHash (GoMap.ofList [("tag", ["x\x1fy"])]) := by
  refine ⟨fun h => ?_, fun sum => ?_⟩
  · exact absurd (h "tag" (by decide)) (by decide +kernel)
  · have htext : filterText (GoMap.ofList [("tag", ["x", "y"])]) =
        filterText (GoMap.ofList [("tag", ["x\x1fy"])]) := by
      decide +kernel
    exact congrArg (@truncatedHash ⟨sum⟩) htext

end AuthSec
