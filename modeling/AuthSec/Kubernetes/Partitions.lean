import AuthSec.Go.Strings

/-!
# Partitions of a sweep

A sweep of a cluster owns one partition for each class of nodes and each kind of edges in every scope
that it read.  The key of a partition is stamped on its rows and read back by position; the name of
the cluster stands between the fields and may hold the separator itself.

* `Partition.Readable.split_key`: the fields of a key, whatever the name of the cluster;
* `parsePartitionKey_key`: reading the key of a partition gives the partition;
* `parsePartitionKey_sound`: what is read has the key and is of a class and kind that sweeps own;
* `partitionKeys_invertible`: the three together, for the partitions of sweeps with proper names.
-/

namespace AuthSec

open List

/-- `uuid.UUID` with its text: a text is read back, and holds no separator. -/
class UuidText (U : Type) where
  string : U → String
  parse : String → Option U
  parse_string : ∀ u, parse (string u) = some u
  bar_notMem : ∀ u, '|' ∉ (string u).toList

/-! ## Keys -/

/-- The node classes that a partition may own. -/
inductive NodeClass where
  | identity
  | policy
  | entitlement
  | workload
  deriving DecidableEq

def NodeClass.text : NodeClass → String
  | identity => "identity"
  | policy => "policy"
  | entitlement => "entitlement"
  | workload => "workload"

def NodeClass.all : List NodeClass :=
  [.identity, .policy, .entitlement, .workload]

/-- The edge targets that a partition may own. -/
inductive EdgeTarget where
  | assignment
  | accessEdge
  | executesAs
  | memberOf
  deriving DecidableEq

def EdgeTarget.text : EdgeTarget → String
  | assignment => "assignment"
  | accessEdge => "access_edge"
  | executesAs => "executes_as"
  | memberOf => "member_of"

def EdgeTarget.all : List EdgeTarget :=
  [.assignment, .accessEdge, .executesAs, .memberOf]

/-- `strings.Split` at one character. -/
def split (s : String) (sep : Char) : List String :=
  (s.toList.splitOn sep).map String.ofList

/-- `strings.Join` with one character between. -/
def join (parts : List String) (sep : Char) : String :=
  String.ofList ([sep].intercalate (parts.map String.toList))

section

variable {s : String} {sep : Char}

lemma split_of_notMem (h : sep ∉ s.toList) : split s sep = [s] := by
  have hone : s.toList.splitOn sep = [s.toList] := by
    have hsplit : ([sep].intercalate [s.toList]).splitOn sep = [s.toList] :=
      splitOn_intercalate sep (by simpa using h) (by simp)
    rwa [intercalate_singleton] at hsplit
  rw [split, hone]
  simp

lemma split_ne_nil : split s sep ≠ [] := by
  simp [split]

/-- The parts of joined texts are those of the texts. -/
lemma split_join_cons (a b : String) (parts : List String) :
    split (join (a :: b :: parts) sep) sep = split a sep ++ split (join (b :: parts) sep) sep := by
  simp [split, join, intercalate_cons_cons, splitOn_append_cons_self]

lemma join_singleton (a : String) : join [a] sep = a := by
  simp [join]

lemma join_split : join (split s sep) sep = s := by
  have hparts : (split s sep).map String.toList = s.toList.splitOn sep := by
    simp [split, Function.comp_def]
  rw [join, hparts, intercalate_splitOn, String.ofList_toList]

end

/-- `Partition`: no namespace is the scope of the cluster; a class for nodes, a target for edges. -/
structure Partition (U : Type) where
  sourceID : U
  cluster : String
  ns : String := ""
  nodeClass : String := ""
  target : String := ""
  deriving DecidableEq

section

variable {U : Type} [UuidText U]

/-- `Partition.Key`. -/
def Partition.key (p : Partition U) : String :=
  let target := if p.target = "" then "node" else p.target
  let scope := if p.ns = "" then "-cluster-" else p.ns
  join [UuidText.string p.sourceID, p.cluster, scope, target, p.nodeClass] '|'

/-- The class and target that `ParsePartitionKey` makes of the last two fields. -/
def ownedFields (target nodeClass : String) : Option (String × String) :=
  if target = "node" then
    if nodeClass ∈ NodeClass.all.map NodeClass.text then some ("", nodeClass) else none
  else if target ∈ EdgeTarget.all.map EdgeTarget.text then
    if nodeClass ≠ "" then none else some (target, nodeClass)
  else none

/-- `ParsePartitionKey`. -/
def parsePartitionKey (key : String) : Option (Partition U) :=
  let parts := split key '|'
  let n := parts.length
  if n < 5 then none
  else do
    let src ← UuidText.parse (parts.getD 0 "")
    let cluster := join ((parts.drop 1).take (n - 4)) '|'
    let ns := parts.getD (n - 3) ""
    if cluster = "" ∨ ns = "" then none
    else
      let (target, nodeClass) ← ownedFields (parts.getD (n - 2) "") (parts.getD (n - 1) "")
      let p : Partition U :=
        { sourceID := src, cluster, ns := if ns = "-cluster-" then "" else ns, nodeClass, target }
      if p.key ≠ key then none else some p

/-! ## Partitions of a scope -/

/-- `Scope`: what a sweep looked at, and whether it finished. -/
structure Scope (U : Type) where
  sourceID : U
  cluster : String
  complete : Bool
  clusterScoped : Bool
  namespaces : List String

/-- The partitions of one namespace, or of the scope of the cluster. -/
def partitionsIn (s : Scope U) (ns : String) : List (Partition U) :=
  (NodeClass.all.map fun c =>
    { sourceID := s.sourceID, cluster := s.cluster, ns, nodeClass := c.text }) ++
  EdgeTarget.all.map fun t =>
    { sourceID := s.sourceID, cluster := s.cluster, ns, target := t.text }

/-- `Partitions`. -/
def partitions (s : Scope U) : List (Partition U) :=
  (if s.clusterScoped then partitionsIn s "" else []) ++ s.namespaces.flatMap (partitionsIn s)

/-- The fields that tell apart what a partition owns. -/
inductive Owned : String → String → Prop
  | node (c : NodeClass) : Owned "" c.text
  | edge (t : EdgeTarget) : Owned t.text ""

omit [UuidText U] in
lemma mem_partitionsIn {s : Scope U} {ns : String} {p : Partition U} :
    p ∈ partitionsIn s ns ↔ p.sourceID = s.sourceID ∧ p.cluster = s.cluster ∧ p.ns = ns ∧
      Owned p.target p.nodeClass := by
  constructor
  · intro h
    rcases mem_append.1 h with h | h
    · obtain ⟨c, -, rfl⟩ := mem_map.1 h
      exact ⟨rfl, rfl, rfl, .node c⟩
    · obtain ⟨t, -, rfl⟩ := mem_map.1 h
      exact ⟨rfl, rfl, rfl, .edge t⟩
  · obtain ⟨src, cluster, ns', nodeClass, target⟩ := p
    rintro ⟨rfl, rfl, rfl, howned⟩
    simp only at howned
    cases howned with
    | node c =>
        exact mem_append_left _ (mem_map.2 ⟨c, by cases c <;> decide, rfl⟩)
    | edge t =>
        exact mem_append_right _ (mem_map.2 ⟨t, by cases t <;> decide, rfl⟩)

/-- A scope that a partition may be in. -/
def Scope.Reads (s : Scope U) (ns : String) : Prop :=
  ns = "" ∧ s.clusterScoped = true ∨ ns ∈ s.namespaces

omit [UuidText U] in
lemma mem_partitions {s : Scope U} {p : Partition U} :
    p ∈ partitions s ↔ p.sourceID = s.sourceID ∧ p.cluster = s.cluster ∧ s.Reads p.ns ∧
      Owned p.target p.nodeClass := by
  have hcluster : p ∈ (if s.clusterScoped then partitionsIn s "" else []) ↔
      s.clusterScoped = true ∧ p ∈ partitionsIn s "" := by
    split_ifs with h <;> simp [h]
  rw [partitions, mem_append, hcluster, mem_flatMap]
  simp only [mem_partitionsIn, Scope.Reads]
  constructor
  · rintro (⟨hscoped, hsrc, hname, hns, howned⟩ | ⟨ns, hmem, hsrc, hname, hns, howned⟩)
    · exact ⟨hsrc, hname, Or.inl ⟨hns, hscoped⟩, howned⟩
    · exact ⟨hsrc, hname, Or.inr (hns ▸ hmem), howned⟩
  · rintro ⟨hsrc, hname, ⟨hns, hscoped⟩ | hmem, howned⟩
    · exact Or.inl ⟨hscoped, hsrc, hname, hns, howned⟩
    · exact Or.inr ⟨p.ns, hmem, hsrc, hname, rfl, howned⟩

/-! ## Reading keys back -/

/-- The partition can be told from its key: a cluster with a name, and a namespace that is neither
the sentinel nor holds the separator. -/
structure Partition.Readable (p : Partition U) : Prop where
  cluster : p.cluster ≠ ""
  ns : '|' ∉ p.ns.toList ∧ p.ns ≠ "-cluster-"
  owned : Owned p.target p.nodeClass

lemma Owned.bar_notMem {target nodeClass : String} (h : Owned target nodeClass) :
    '|' ∉ (if target = "" then "node" else target).toList ∧ '|' ∉ nodeClass.toList ∧
      ownedFields (if target = "" then "node" else target) nodeClass = some (target, nodeClass) := by
  cases h with
  | node c => cases c <;> decide
  | edge t => cases t <;> decide

lemma Partition.Readable.split_key {p : Partition U} (hp : p.Readable) :
    split p.key '|' = UuidText.string p.sourceID :: (split p.cluster '|' ++
      [if p.ns = "" then "-cluster-" else p.ns, if p.target = "" then "node" else p.target,
        p.nodeClass]) := by
  obtain ⟨htarget, hclass, -⟩ := hp.owned.bar_notMem
  have hscope : '|' ∉ (if p.ns = "" then "-cluster-" else p.ns).toList := by
    split_ifs
    · decide
    · exact hp.ns.1
  simp only [Partition.key, split_join_cons, join_singleton,
    split_of_notMem (UuidText.bar_notMem p.sourceID), split_of_notMem hscope,
    split_of_notMem htarget, split_of_notMem hclass]
  simp

/-- The fields around the parts of the cluster, by position. -/
lemma fields_of_parts (u a b c : String) (cs : List String) :
    let parts := u :: (cs ++ [a, b, c])
    parts.length = cs.length + 4 ∧ (parts.drop 1).take (parts.length - 4) = cs ∧
      parts.getD 0 "" = u ∧ parts.getD (parts.length - 3) "" = a ∧
      parts.getD (parts.length - 2) "" = b ∧ parts.getD (parts.length - 1) "" = c := by
  have hlen : (u :: (cs ++ [a, b, c])).length = cs.length + 4 := by simp
  have hback (i : ℕ) (x : String) (hx : [a, b, c][i]? = some x) :
      (u :: (cs ++ [a, b, c])).getD (cs.length + i + 1) "" = x := by
    rw [getD_eq_getElem?_getD, getElem?_cons_succ,
      getElem?_append_right (Nat.le_add_right ..), Nat.add_sub_cancel_left, hx]
    rfl
  refine ⟨hlen, ?_, rfl, ?_, ?_, ?_⟩
  · simp
  · rw [hlen]
    exact hback 0 a rfl
  · rw [hlen]
    exact hback 1 b rfl
  · rw [hlen]
    exact hback 2 c rfl

/-- Reading the key of a partition gives the partition. -/
theorem parsePartitionKey_key {p : Partition U} (hp : p.Readable) :
    parsePartitionKey p.key = some p := by
  obtain ⟨-, -, hfields⟩ := hp.owned.bar_notMem
  have hscope : (if p.ns = "" then "-cluster-" else p.ns) ≠ "" := by
    split_ifs with h
    · decide
    · exact h
  have hns : (if (if p.ns = "" then "-cluster-" else p.ns) = "-cluster-" then "" else
      if p.ns = "" then "-cluster-" else p.ns) = p.ns := by
    by_cases h : p.ns = ""
    · simp [h]
    · simp [h, hp.ns.2]
  obtain ⟨hlen, hmiddle, hfirst, hthird, hsecond, hlast⟩ := fields_of_parts
    (UuidText.string p.sourceID) (if p.ns = "" then "-cluster-" else p.ns)
    (if p.target = "" then "node" else p.target) p.nodeClass (split p.cluster '|')
  have hparts : 0 < (split p.cluster '|').length := length_pos_iff.2 split_ne_nil
  simp only [parsePartitionKey, hp.split_key]
  rw [if_neg (by omega), hmiddle, hfirst, hthird, hsecond, hlast, join_split,
    UuidText.parse_string, hfields]
  simp only [Option.bind_eq_bind, Option.bind_some, hns]
  rw [if_neg (not_or.2 ⟨hp.cluster, hscope⟩)]
  exact if_neg (not_not.2 rfl)

lemma Owned.of_ownedFields {target nodeClass : String} {r : String × String}
    (h : ownedFields target nodeClass = some r) : Owned r.1 r.2 := by
  rw [ownedFields] at h
  split_ifs at h with hnode hclass htarget hempty
  · obtain rfl := Option.some.inj h
    obtain ⟨c, -, rfl⟩ := mem_map.1 hclass
    exact .node c
  · obtain rfl := Option.some.inj h
    obtain ⟨t, -, rfl⟩ := mem_map.1 htarget
    rw [not_not.1 hempty]
    exact .edge t

/-- What is read has the key, and belongs to one of the kinds of partitions. -/
theorem parsePartitionKey_sound {key : String} {p : Partition U}
    (h : parsePartitionKey key = some p) : p.key = key ∧ Owned p.target p.nodeClass := by
  obtain ⟨-, h₁⟩ := Option.ite_none_left_eq_some.1 h
  obtain ⟨src, -, h₂⟩ := Option.bind_eq_some_iff.1 h₁
  obtain ⟨-, h₃⟩ := Option.ite_none_left_eq_some.1 h₂
  obtain ⟨⟨target, nodeClass⟩, hfields, h₄⟩ := Option.bind_eq_some_iff.1 h₃
  obtain ⟨hkey, h₅⟩ := Option.ite_none_left_eq_some.1 h₄
  have howned := Owned.of_ownedFields hfields
  obtain rfl := Option.some.inj h₅
  exact ⟨not_not.1 hkey, howned⟩

/-! ## Keys of the partitions of a sweep -/

end

/-- A letter or digit of the name of an object. -/
def IsNameAlnum (c : Char) : Prop :=
  c.isLower = true ∨ c.isDigit = true

instance : DecidablePred IsNameAlnum := fun _ => inferInstanceAs (Decidable (_ ∨ _))

/-- A name that Kubernetes accepts: lower-case letters, digits, `-` and `.`, with a letter or digit at
both ends.  (The name of a namespace has no `.` and at most 63 characters.) -/
structure IsObjectName (s : String) : Prop where
  length : s.toList.length ≤ 253
  head : ∃ c ∈ s.toList.head?, IsNameAlnum c
  last : ∃ c ∈ s.toList.getLast?, IsNameAlnum c
  chars : ∀ c ∈ s.toList, IsNameAlnum c ∨ c = '-' ∨ c = '.'

/-- The scope of a cluster with a name, all namespaces of which have valid names. -/
structure Scope.Named {U : Type} (s : Scope U) : Prop where
  cluster : s.cluster ≠ ""
  namespaces : ∀ ns ∈ s.namespaces, IsObjectName ns

lemma IsObjectName.readable {s : String} (h : IsObjectName s) :
    '|' ∉ s.toList ∧ s ≠ "-cluster-" := by
  constructor
  · intro hmem
    exact absurd (h.chars '|' hmem) (by decide)
  · rintro rfl
    obtain ⟨c, hc, halnum⟩ := h.head
    obtain rfl : '-' = c := by simpa using hc
    exact absurd halnum (by decide)

section

variable {U : Type} [UuidText U]

omit [UuidText U] in
lemma Scope.Named.readable {s : Scope U} (hs : s.Named) {p : Partition U} (hp : p ∈ partitions s) :
    p.Readable := by
  obtain ⟨-, hcluster, hns, howned⟩ := mem_partitions.1 hp
  refine ⟨hcluster ▸ hs.cluster, ?_, howned⟩
  rcases hns with ⟨hns, -⟩ | hns
  · rw [hns]
    decide
  · exact (hs.namespaces p.ns hns).readable

/-- Keys of partitions can be read back, tell all partitions apart, and are the only texts that are
read. -/
theorem partitionKeys_invertible :
    (∀ s : Scope U, s.Named → ∀ p ∈ partitions s, parsePartitionKey p.key = some p) ∧
    (∀ s s' : Scope U, s.Named → s'.Named → ∀ p ∈ partitions s, ∀ q ∈ partitions s',
      p.key = q.key → p = q) ∧
    ∀ (key : String) (p : Partition U), parsePartitionKey key = some p →
      p.key = key ∧ ∃ s : Scope U, p ∈ partitions s := by
  refine ⟨fun s hs p hp => parsePartitionKey_key (hs.readable hp), ?_, fun key p h => ?_⟩
  · intro s s' hs hs' p hp q hq hkey
    have hread := parsePartitionKey_key (hs.readable hp)
    rw [hkey, parsePartitionKey_key (hs'.readable hq)] at hread
    exact (Option.some.inj hread).symm
  · obtain ⟨hkey, howned⟩ := parsePartitionKey_sound h
    -- a sweep that reads this one namespace, the empty one for a partition of the cluster scope
    refine ⟨hkey, ⟨p.sourceID, p.cluster, true, false, [p.ns]⟩, ?_⟩
    exact mem_partitions.2 ⟨rfl, rfl, Or.inr (mem_singleton_self _), howned⟩

end

/-- One identifier with its text. -/
@[reducible]
def oneUuid : UuidText Unit where
  string _ := "6ba7b810-9dad-11d1-80b4-00c04fd430c8"
  parse s := if s = "6ba7b810-9dad-11d1-80b4-00c04fd430c8" then some () else none
  parse_string _ := if_pos rfl
  bar_notMem _ := by decide

/-- The cluster of a sweep may hold the separator. -/
theorem partitionKeys_invertible_separator :
    let _ : UuidText Unit := oneUuid
    let s : Scope Unit := ⟨(), "eu|west", true, true, ["kube-system"]⟩
    s.Named ∧ ∀ p ∈ partitions s, parsePartitionKey p.key = some p := by
  intro _ s
  have hnamed : s.Named := by
    refine ⟨by decide, fun ns hns => ?_⟩
    obtain rfl := mem_singleton.1 hns
    exact ⟨by decide, ⟨'k', rfl, by decide⟩, ⟨'m', rfl, by decide⟩, by decide⟩
  exact ⟨hnamed, partitionKeys_invertible.1 s hnamed⟩

end AuthSec
