import AuthSec.Discovery.Trust
import AuthSec.Lib.Occurrences

/-!
# Keys of statements

A statement is known by its `Sid` where no other statement of its document has it, and else by the
hash of its content, with a number among the statements of that hash.

* `keysOf_perm`: the keys by identifiers, and the numbered ones;
* `statementKeys_reordered`: keys are distinct, and a document in another order has the same keys for
  the same contents.
-/

namespace AuthSec

open List

/-! ## Keys -/

/-- `Key`: the parts of a key behind the unit separator. -/
def sourceKey (provider : String) (parts : List String) : String :=
  provider ++ "\x1f" ++ String.ofList (['\x1f'].intercalate (parts.map String.toList))

/-- `m[k]` for a map of counters. -/
def GoMap.count (m : GoMap ℕ) (k : String) : ℕ :=
  (m.get? k).getD 0

/-- The last part of a statement's key, and the counters behind it. -/
def statementPart (sids hashSeen : GoMap ℕ) (sid hash : String) : String × GoMap ℕ :=
  if sid ≠ "" ∧ sids.count sid = 1 then ("sid:" ++ sid, hashSeen)
  else
    let n := hashSeen.count hash + 1
    ("h:" ++ hash ++ "#" ++ toString n, hashSeen.insert hash n)

/-- A key of a statement with its content hash, and the counters behind it. -/
def keyedStatement (owner part : String) (sids hashSeen : GoMap ℕ) (sid hash : String) :
    (String × String) × GoMap ℕ :=
  let last := statementPart sids hashSeen sid hash
  ((sourceKey "aws" [owner, part, last.1], hash), last.2)

/-- The counts of the names that are not empty. -/
def countNames (names : List String) : GoMap ℕ :=
  names.foldl (fun out name => if name ≠ "" then out.insert name (out.count name + 1) else out) ∅

/-- The keys that a loop over a document assigns. -/
def assignKeys {σ : Type} (key : σ → GoMap ℕ → (String × String) × GoMap ℕ) :
    GoMap ℕ → List σ → List (String × String)
  | _, [] => []
  | hashSeen, st :: sts => (key st hashSeen).1 :: assignKeys key (key st hashSeen).2 sts

section

variable [Sha256]

/-- `CountSids`. -/
def countSids (sts : List PolicyStatement) : GoMap ℕ :=
  countNames (sts.map (·.sid))

/-- `StatementKey`. -/
def statementKey (policyIncarnation : String) (st : PolicyStatement) (sids hashSeen : GoMap ℕ) :
    (String × String) × GoMap ℕ :=
  keyedStatement policyIncarnation "stmt" sids hashSeen st.sid st.contentHash

/-- The keys and content hashes of the statements of a policy. -/
def statementKeys (policyIncarnation : String) (sts : List PolicyStatement) :
    List (String × String) :=
  assignKeys (fun st => statementKey policyIncarnation st (countSids sts)) ∅ sts

/-- `CountTrustSids`. -/
def countTrustSids (sts : List TrustStatement) : GoMap ℕ :=
  countNames (sts.map (·.sid))

/-- `TrustStatementKey`. -/
def trustStatementKey (roleEndpoint : String) (st : TrustStatement) (sids hashSeen : GoMap ℕ) :
    (String × String) × GoMap ℕ :=
  keyedStatement roleEndpoint "trust" sids hashSeen st.sid st.contentHash

/-- The keys and content hashes of the statements of a trust document. -/
def trustStatementKeys (roleEndpoint : String) (sts : List TrustStatement) :
    List (String × String) :=
  assignKeys (fun st => trustStatementKey roleEndpoint st (countTrustSids sts)) ∅ sts

end

/-! ## Counters -/

lemma count_insert (m : GoMap ℕ) (k k' : String) (n : ℕ) :
    GoMap.count (m.insert k n) k' = if k' = k then n else m.count k' := by
  unfold GoMap.count
  split_ifs with hk
  · rw [hk, GoMap.get?_insert, Option.getD_some]
  · rw [GoMap.get?_insert_ne m n hk]

lemma countNames_eq (names : List String) (name : String) :
    (countNames names).count name = if name = "" then 0 else names.count name := by
  have hfold : ∀ m : GoMap ℕ, GoMap.count (names.foldl (fun out name =>
      if name ≠ "" then out.insert name (out.count name + 1) else out) m) name =
        m.count name + if name = "" then 0 else names.count name := by
    induction names with
    | nil => simp
    | cons x names ih =>
        intro m
        rw [foldl_cons, ih]
        by_cases hx : x = ""
        · subst hx
          rw [if_neg (not_not.2 rfl)]
          split_ifs with hname
          · rfl
          · rw [count_cons_of_ne (Ne.symm hname)]
        · rw [if_pos hx, count_insert]
          by_cases hname : name = x
          · subst hname
            rw [if_pos rfl, if_neg hx, if_neg hx, count_cons_self]
            omega
          · rw [if_neg hname, count_cons_of_ne (Ne.symm hname)]
  rw [countNames, hfold]
  simp [GoMap.count]

/-! ## Keys by identifier and numbered keys -/

section

variable (owner part : String) (sids : GoMap ℕ)

/-- The identifier and the hash of a statement make a key of their own. -/
def ownSid (e : String × String) : Bool :=
  e.1 ≠ "" ∧ sids.count e.1 = 1

/-- The key of a statement by its identifier. -/
def sidKey (e : String × String) : String × String :=
  (sourceKey "aws" [owner, part, "sid:" ++ e.1], e.2)

/-- The key of a statement by its hash and its number. -/
def hashKey (e : String × ℕ) : String × String :=
  (sourceKey "aws" [owner, part, "h:" ++ e.1 ++ "#" ++ toString e.2], e.1)

/-- The keys of a document whose statements have these identifiers and hashes. -/
def keysFrom (hashSeen : GoMap ℕ) (es : List (String × String)) : List (String × String) :=
  assignKeys (fun e hashSeen => keyedStatement owner part sids hashSeen e.1 e.2) hashSeen es

variable {owner part sids}

/-- The loop assigns the keys of both forms. -/
lemma keysFrom_perm (hashSeen : GoMap ℕ) (es : List (String × String)) :
    (keysFrom owner part sids hashSeen es).Perm
      ((es.filter (ownSid sids)).map (sidKey owner part) ++
        (numbered hashSeen.count ((es.filter (!ownSid sids ·)).map Prod.snd)).map
          (hashKey owner part)) := by
  induction es generalizing hashSeen with
  | nil => exact List.Perm.refl _
  | cons e es ih =>
      rw [keysFrom, assignKeys, ← keysFrom]
      by_cases he : ownSid sids e = true
      · have hpart : statementPart sids hashSeen e.1 e.2 = ("sid:" ++ e.1, hashSeen) :=
          if_pos (of_decide_eq_true he)
        rw [keyedStatement, hpart]
        simp only [filter_cons, he, if_true, Bool.not_true, Bool.false_eq_true, if_false,
          map_cons, cons_append]
        exact (ih hashSeen).cons _
      · have hpart : statementPart sids hashSeen e.1 e.2 =
            ("h:" ++ e.2 ++ "#" ++ toString (hashSeen.count e.2 + 1),
              hashSeen.insert e.2 (hashSeen.count e.2 + 1)) :=
          if_neg fun hown => he (decide_eq_true hown)
        have hcount : (GoMap.count (hashSeen.insert e.2 (hashSeen.count e.2 + 1))) =
            Function.update hashSeen.count e.2 (hashSeen.count e.2 + 1) := by
          funext k
          rw [count_insert, Function.update_apply]
        rw [keyedStatement, hpart]
        simp only [filter_cons, he, Bool.false_eq_true, if_false, Bool.not_false, if_true,
          map_cons, numbered]
        refine ((ih _).cons _).trans ?_
        rw [hcount]
        exact List.perm_middle.symm

lemma sourceKey_inj {x y : String}
    (h : sourceKey "aws" [owner, part, x] = sourceKey "aws" [owner, part, y]) : x = y := by
  have hlist := congrArg String.toList h
  simp only [sourceKey, String.toList_append, String.toList_ofList, map_cons, map_nil,
    append_cancel_left_eq] at hlist
  simpa [List.intercalate, List.intersperse, String.toList_inj] using hlist

lemma toDigits_toString (n : ℕ) : (toString n).toList = Nat.toDigits 10 n := by
  rw [Nat.toString_eq_repr, Nat.repr_eq_ofList_toDigits, String.toList_ofList]

lemma hash_notMem_toString (n : ℕ) : '#' ∉ (toString n).toList := by
  rw [toDigits_toString]
  intro hmem
  exact absurd (Nat.isDigit_of_mem_toDigits (by decide) (by decide) hmem) (by decide)

/-- The number stands behind the last number sign. -/
lemma hashKey_inj {e e' : String × ℕ} (h : (hashKey owner part e).1 = (hashKey owner part e').1) :
    e = e' := by
  obtain ⟨hash, n⟩ := e
  obtain ⟨hash', n'⟩ := e'
  have hlist := congrArg (fun s => s.toList.reverse) (sourceKey_inj h)
  simp only [String.toList_append, reverse_append, append_assoc] at hlist
  have hn : ∀ m, '#' ∉ (toString m).toList.reverse := fun m =>
    mt mem_reverse.1 (hash_notMem_toString m)
  obtain ⟨hnum, hhash⟩ := append_sep_inj (hn n) (hn n') hlist
  rw [reverse_inj, toDigits_toString, toDigits_toString] at hnum
  have hnumber := congrArg (Nat.ofDigitChars 10 · 0) hnum
  simp only [Nat.ofDigitChars_toDigits (by decide : 1 < 10) (by decide : 10 ≤ 10)] at hnumber
  change hash.toList.reverse ++ _ = hash'.toList.reverse ++ _ at hhash
  rw [append_cancel_right_eq, reverse_inj, String.toList_inj] at hhash
  rw [hhash, hnumber]

lemma sidKey_ne_hashKey (e : String × String) (e' : String × ℕ) :
    (sidKey owner part e).1 ≠ (hashKey owner part e').1 := by
  intro h
  have hlist := congrArg String.toList (sourceKey_inj h)
  simp [String.toList_append] at hlist

/-- No identifier that makes a key of its own stands twice. -/
lemma nodup_ownSid {es : List (String × String)} :
    ((es.filter (ownSid (countNames (es.map Prod.fst)))).map Prod.fst).Nodup := by
  refine nodup_iff_count_le_one.2 fun sid => ?_
  by_cases hmem : sid ∈ (es.filter (ownSid (countNames (es.map Prod.fst)))).map Prod.fst
  · obtain ⟨e, he, rfl⟩ := mem_map.1 hmem
    obtain ⟨hne, hone⟩ := of_decide_eq_true (mem_filter.1 he).2
    rw [countNames_eq, if_neg hne] at hone
    rw [← hone]
    exact (filter_sublist.map Prod.fst).count_le e.1
  · rw [count_eq_zero_of_not_mem hmem]
    exact Nat.zero_le 1

variable (owner part) in
/-- The keys of statements with these identifiers and hashes, counted from the start. -/
def keysOf (es : List (String × String)) : List (String × String) :=
  keysFrom owner part (countNames (es.map Prod.fst)) ∅ es

lemma nodup_keysOf (es : List (String × String)) : ((keysOf owner part es).map Prod.fst).Nodup := by
  rw [keysOf, ((keysFrom_perm ∅ es).map Prod.fst).nodup_iff, map_append, List.map_map, List.map_map]
  refine nodup_append.2 ⟨?_, ?_, ?_⟩
  · have hfst : Prod.fst ∘ sidKey owner part =
        (fun sid => sourceKey "aws" [owner, part, "sid:" ++ sid]) ∘ Prod.fst := rfl
    rw [hfst, ← List.map_map]
    refine nodup_ownSid.map fun sid sid' h => ?_
    have hlist := congrArg String.toList (sourceKey_inj h)
    rw [String.toList_append, String.toList_append, append_cancel_left_eq] at hlist
    exact String.toList_inj.1 hlist
  · exact (nodup_numbered _ _).map fun e e' h => hashKey_inj h
  · rintro k hk k' hk' rfl
    obtain ⟨e, -, he⟩ := mem_map.1 hk
    obtain ⟨e', -, he'⟩ := mem_map.1 hk'
    exact sidKey_ne_hashKey e e' (he.trans he'.symm)

/-- The keys depend on the statements, not on their order. -/
lemma mem_keysOf_congr {es es' : List (String × String)} (hperm : es.Perm es')
    (k : String × String) : k ∈ keysOf owner part es ↔ k ∈ keysOf owner part es' := by
  have hown : ownSid (countNames (es.map Prod.fst)) = ownSid (countNames (es'.map Prod.fst)) := by
    funext e
    rw [ownSid, ownSid, countNames_eq, countNames_eq, (hperm.map Prod.fst).count_eq]
  rw [keysOf, keysOf, (keysFrom_perm ∅ es).mem_iff, (keysFrom_perm ∅ es').mem_iff, hown,
    mem_append, mem_append]
  refine or_congr ((hperm.filter _).map _).mem_iff ?_
  rw [mem_map, mem_map]
  refine exists_congr fun e => and_congr_left fun _ => ?_
  exact numbered_congr ((hperm.filter _).map _) e

end

/-! ## Keys of documents -/

lemma assignKeys_map {σ τ : Type} {f : σ → τ} {key : τ → GoMap ℕ → (String × String) × GoMap ℕ}
    (hashSeen : GoMap ℕ) (sts : List σ) :
    assignKeys (fun st => key (f st)) hashSeen sts = assignKeys key hashSeen (sts.map f) := by
  induction sts generalizing hashSeen with
  | nil => rfl
  | cons st sts ih => rw [map_cons, assignKeys, assignKeys, ih]

/-- Two lists of keys with contents: each without repetition, and the same keys for the same
contents. -/
structure SameKeys (keys keys' : List (String × String)) : Prop where
  nodup : (keys.map Prod.fst).Nodup
  nodup' : (keys'.map Prod.fst).Nodup
  same : ∀ k, k ∈ keys ↔ k ∈ keys'

lemma sameKeys_of_perm {owner part : String} {es es' : List (String × String)}
    (hperm : es.Perm es') : SameKeys (keysOf owner part es) (keysOf owner part es') :=
  ⟨nodup_keysOf es, nodup_keysOf es', mem_keysOf_congr hperm⟩

section

variable [Sha256]

lemma statementKeys_eq (owner : String) (sts : List PolicyStatement) :
    statementKeys owner sts = keysOf owner "stmt" (sts.map fun st => (st.sid, st.contentHash)) := by
  rw [keysOf, keysFrom, List.map_map, ← assignKeys_map]
  rfl

lemma trustStatementKeys_eq (owner : String) (sts : List TrustStatement) :
    trustStatementKeys owner sts =
      keysOf owner "trust" (sts.map fun st => (st.sid, st.contentHash)) := by
  rw [keysOf, keysFrom, List.map_map, ← assignKeys_map]
  rfl

/-- The keys of the statements of a policy or trust document are distinct, and the document in
another order has the same keys for the same contents. -/
theorem statementKeys_reordered {doc doc' : Json Float64} (hdocs : Reordered doc doc')
    (owner : String) :
    (∀ sts skipped, parsePolicyDocument doc = .ok (sts, skipped) →
      ∃ sts', parsePolicyDocument doc' = .ok (sts', skipped) ∧
        SameKeys (statementKeys owner sts) (statementKeys owner sts')) ∧
      ∀ d, parseTrustDocument doc = .ok d →
        ∃ d', parseTrustDocument doc' = .ok d' ∧
          SameKeys (trustStatementKeys owner d.statements)
            (trustStatementKeys owner d'.statements) := by
  constructor
  · intro sts skipped h
    obtain ⟨sts', h', hperm⟩ := parsePolicyDocument_perm hdocs h
    refine ⟨sts', h', ?_⟩
    have hes := hperm.map fun st => (st.sid, st.contentHash)
    rw [List.map_map, List.map_map] at hes
    rw [statementKeys_eq, statementKeys_eq]
    exact sameKeys_of_perm hes
  · intro d h
    obtain ⟨d', h', hperm⟩ := parseTrustDocument_perm hdocs h
    refine ⟨d', h', ?_⟩
    have hes := hperm.map fun st => (st.sid, st.contentHash)
    rw [List.map_map, List.map_map] at hes
    rw [trustStatementKeys_eq, trustStatementKeys_eq]
    exact sameKeys_of_perm hes

end

/-- A statement that allows reading, with or without an identifier. -/
def readStatement (sid : Members Float64) : Json Float64 :=
  .obj (sid ++ [("Effect", .str "Allow"), ("Action", .str "s3:Get*"), ("Resource", .str "*")])

/-- Two statements without an identifier and one with it, in both orders. -/
theorem statementKeys_reordered_read :
    let _ : Sha256 := ⟨id⟩
    let named := readStatement [("Sid", .str "Read")]
    let doc : Json Float64 := .obj [("Statement", .arr [named, readStatement [], readStatement []])]
    let doc' : Json Float64 := .obj [("Statement", .arr [readStatement [], readStatement [], named])]
    ∃ sts skipped, parsePolicyDocument doc = .ok (sts, skipped) ∧ sts.map (·.sid) = ["Read", "", ""] ∧
      ∃ sts', parsePolicyDocument doc' = .ok (sts', skipped) ∧
        SameKeys (statementKeys "policy" sts) (statementKeys "policy" sts') := by
  intro _ named doc doc'
  have hperm : ([named] ++ [readStatement [], readStatement []]).Perm
      ([readStatement [], readStatement []] ++ [named]) := perm_append_comm
  have hsids : (parsePolicyDocument doc).toOption.map (fun r => r.1.map (·.sid)) =
      some ["Read", "", ""] := by
    decide +kernel
  cases hdoc : parsePolicyDocument doc with
  | error e => simp [hdoc, Except.toOption] at hsids
  | ok r =>
      obtain ⟨sts, skipped⟩ := r
      refine ⟨sts, skipped, rfl, by simpa [hdoc, Except.toOption] using hsids, ?_⟩
      exact (statementKeys_reordered (.list [] [] "Statement" hperm) "policy").1 sts skipped hdoc

end AuthSec
