import AuthSec.Policy.Document

/-!
# Decoding a canonical document

The decoder reads a document and its canonical form alike: no element depends on the order of
members, and what it keeps of a number is its canonical text.

* `decodeDocument_canon`: decoding the canonical form of a value;
* `decodePolicyDocument_writeCanonical`: decoding a canonical text.
-/

namespace AuthSec

open List

@[simp]
lemma Json.canon_str (s : String) : (Json.str s).canon = .str s := rfl

/-! ## Elements -/

section

variable {v : Json Float64} {room : ℕ}

/-- The members of a canonical object are the canonical members in another order. -/
lemma canonMembers_perm (ms : Members Float64) :
    (canonMembers ms).Perm (ms.map fun m => (m.1, m.2.canon)) :=
  perm_sortMembers _

/-- Reading the members of a canonical object, if reading does not see the canonical form. -/
lemma mapM_canonMembers {ε β : Type} {f : String × Json Float64 → Except ε β}
    {ms : Members Float64} {bs : List β}
    (hf : ∀ m ∈ ms, ∀ b, f m = .ok b → f (m.1, m.2.canon) = .ok b) (h : ms.mapM f = .ok bs) :
    ∃ bs', (canonMembers ms).mapM f = .ok bs' ∧ bs'.Perm bs :=
  mapM_perm (canonMembers_perm ms) (mapM_map_eq_ok hf h)

lemma stringOrArray_canon {name : String} {l : List String} (h : stringOrArray v name = .ok l) :
    stringOrArray v.canon name = .ok l := by
  cases v with
  | str s => exact h
  | arr els =>
      rw [Json.canon_arr]
      refine mapM_map_eq_ok (fun el _ s hs => ?_) h
      cases el with
      | str t => exact hs
      | _ => cases hs
  | _ => cases h

lemma conditionValueText_canon {s : String} (h : conditionValueText v = .ok s) :
    conditionValueText v.canon = .ok s := by
  cases v with
  | str t => exact h
  | null => exact h
  | bool b => exact h
  | num n =>
      have hcanon : (Json.num n).canon = .num n.printed := rfl
      have htext := writeCanonical_canon (.num n)
      rw [hcanon] at htext ⊢
      change Except.ok (asciiString (writeCanonical (.num n.printed))) = .ok s
      rw [htext]
      exact h
  | arr els => cases h
  | obj ms => cases h

lemma decodePrincipal_canon {name : String} {p : Principal} (hv : v.Fits room)
    (h : decodePrincipal v name = .ok p) : decodePrincipal v.canon name = .ok p := by
  cases v with
  | str s => exact h
  | obj ms =>
      rw [decodePrincipal, bind_eq_ok] at h
      obtain ⟨vals, hvals, h⟩ := h
      have hkeys : vals.map Prod.fst = ms.map Prod.fst := by
        refine mapM_map_fst (fun m e he => ?_) hvals
        obtain ⟨l, -, rfl⟩ := map_eq_ok.1 he
        rfl
      have hnodup : (vals.map Prod.fst).Nodup := by
        rw [hkeys]
        cases hv with
        | obj _ _ hms => exact hms
      obtain ⟨vals', hvals', hperm⟩ := mapM_canonMembers (fun m _ e he => by
        obtain ⟨l, hl, rfl⟩ := map_eq_ok.1 he
        exact map_eq_ok.2 ⟨l, stringOrArray_canon hl, rfl⟩) hvals
      rw [Json.canon_obj, decodePrincipal, hvals', ok_bind, hperm.any_eq,
        ← GoMap.ofList_perm hnodup hperm.symm]
      exact h
  | _ => cases h

end

/-! ## Conditions -/

lemma conditionValues_canon {v : Json Float64} {vals : List String}
    (h : conditionValues v = .ok vals) : conditionValues v.canon = .ok vals := by
  cases v with
  | arr els =>
      rw [Json.canon_arr]
      exact mapM_map_eq_ok (fun el _ s hs => conditionValueText_canon hs) h
  | num n =>
      have hmap : (conditionValueText (.num n)).map (fun s => [s]) = .ok vals := h
      obtain ⟨s, hs, rfl⟩ := map_eq_ok.1 hmap
      change (conditionValueText (Json.num n).canon).map (fun s => [s]) = .ok [s]
      rw [conditionValueText_canon hs]
      rfl
  | obj ms => cases h
  | null => exact h
  | bool b => exact h
  | str s => exact h

/-- An operator that was read is an object with distinct keys. -/
lemma conditionOperator_ok {op : String × Json Float64} {es : List ConditionEntry} {room : ℕ}
    (hv : op.2.Fits room) (h : conditionOperator op = .ok es) :
    (es.map ConditionEntry.sortKey).Nodup ∧ (∀ e ∈ es, e.operator = op.1) ∧
      ∃ es', conditionOperator (op.1, op.2.canon) = .ok es' ∧ es'.Perm es := by
  obtain ⟨name, v⟩ := op
  cases v with
  | obj ks =>
      change ks.mapM (fun k => (conditionValues k.2).map fun vals => _) = .ok es at h
      have hkey : ∀ (k : String × Json Float64) (e : ConditionEntry),
          ((conditionValues k.2).map fun vals => ⟨name, k.1, vals⟩) = .ok e →
            e.sortKey = toLex (name, k.1) := by
        intro k e he
        obtain ⟨vals, -, rfl⟩ := map_eq_ok.1 he
        rfl
      have hkeys : es.map ConditionEntry.sortKey = ks.map fun k => toLex (name, k.1) :=
        mapM_map_fst hkey h
      refine ⟨?_, fun e he => ?_, ?_⟩
      · rw [hkeys]
        cases hv with
        | obj _ _ hks =>
            refine List.Nodup.of_map (fun p => (ofLex p).2) ?_
            simpa [Function.comp_def] using hks
      · obtain ⟨k, -, hk⟩ := exists_of_mem_mapM h he
        exact congrArg (fun p => (ofLex p).1) (hkey k e hk)
      · rw [Json.canon_obj]
        refine mapM_canonMembers (fun k _ e he => ?_) h
        obtain ⟨vals, hvals, rfl⟩ := map_eq_ok.1 he
        exact map_eq_ok.2 ⟨vals, conditionValues_canon hvals, rfl⟩
  | _ => cases h

lemma flatten_perm_of_forall₂ {α : Type} {ls ls' : List (List α)}
    (h : List.Forall₂ List.Perm ls ls') : ls.flatten.Perm ls'.flatten := by
  induction h with
  | nil => exact .nil
  | cons hl _ ih => exact hl.append ih

/-- Operators with distinct names give entries with distinct keys. -/
lemma nodup_conditions {ops : Members Float64} {entries : List (List ConditionEntry)}
    (hnames : (ops.map Prod.fst).Nodup) (hes : List.Forall₂ (fun op es =>
      (es.map ConditionEntry.sortKey).Nodup ∧ ∀ e ∈ es, e.operator = op.1) ops entries) :
    (entries.flatten.map ConditionEntry.sortKey).Nodup ∧
      ∀ e ∈ entries.flatten, e.operator ∈ ops.map Prod.fst := by
  induction hes with
  | nil => exact ⟨nodup_nil, fun e he => absurd he not_mem_nil⟩
  | @cons op es ops entries hop _ ih =>
      obtain ⟨hfresh, hnames⟩ := nodup_cons.1 hnames
      obtain ⟨hrest, hoperators⟩ := ih hnames
      constructor
      · rw [flatten_cons, map_append, nodup_append]
        refine ⟨hop.1, hrest, ?_⟩
        rintro key hkey key' hkey' rfl
        obtain ⟨e, he, rfl⟩ := mem_map.1 hkey
        obtain ⟨e', he', heq⟩ := mem_map.1 hkey'
        have hsame : e'.operator = e.operator := congrArg (fun p => (ofLex p).1) heq
        rw [hop.2 e he] at hsame
        exact hfresh (hsame ▸ hoperators e' he')
      · intro e he
        rcases mem_append.1 he with he | he
        · exact mem_cons.2 (Or.inl (hop.2 e he))
        · exact mem_cons_of_mem _ (hoperators e he)

lemma decodeCondition_canon {v : Json Float64} {room : ℕ} {cs : List ConditionEntry}
    (hv : v.Fits room) (h : decodeCondition v = .ok cs) : decodeCondition v.canon = .ok cs := by
  cases v with
  | obj ops =>
      cases hv with
      | obj room _ hops hvals =>
      rw [decodeCondition, bind_eq_ok] at h
      obtain ⟨entries, hentries, h⟩ := h
      have hop := forall₂_of_mapM
        (fun op hmem es hes => conditionOperator_ok (hvals op hmem) hes) hentries
      -- the entries of the operators, each in the order of its canonical object
      have hcanon : ∃ entries', (ops.map fun m => (m.1, m.2.canon)).mapM conditionOperator =
          .ok entries' ∧ List.Forall₂ List.Perm entries' entries := by
        clear h hops hvals hentries
        induction hop with
        | nil => exact ⟨[], rfl, .nil⟩
        | cons hes _ ih =>
            obtain ⟨-, -, es', hes', hperm⟩ := hes
            obtain ⟨rest, hrest, hall⟩ := ih
            refine ⟨es' :: rest, ?_, .cons hperm hall⟩
            rw [map_cons, mapM_cons, hes', ok_bind, hrest]
            rfl
      obtain ⟨entries', hentries', hall⟩ := hcanon
      obtain ⟨entries'', hentries'', hperm⟩ := mapM_perm (canonMembers_perm ops) hentries'
      have hflat : entries''.flatten.Perm entries.flatten :=
        hperm.flatten.trans (flatten_perm_of_forall₂ hall)
      have hnodup := (nodup_conditions hops (hop.imp fun _ _ hes => ⟨hes.1, hes.2.1⟩)).1
      rw [Json.canon_obj, decodeCondition, hentries'', ok_bind, ← sortOn_congr hflat.symm hnodup]
      exact h
  | _ => cases h

/-! ## Statements -/

/-- The draft with one element taken from another draft. -/
def StatementDraft.put (e : Element) (src d : StatementDraft) : StatementDraft :=
  match e with
  | .sid => { d with sid := src.sid }
  | .effect => { d with effect := src.effect }
  | .action => { d with action := src.action }
  | .notAction => { d with notAction := src.notAction }
  | .resource => { d with resource := src.resource }
  | .notResource => { d with notResource := src.notResource }
  | .principal => { d with principal := src.principal }
  | .notPrincipal => { d with notPrincipal := src.notPrincipal }
  | .condition => { d with conditions := src.conditions }

variable {e : Element} {f : StatementDraft → StatementDraft} {m : String × Json Float64}

lemma StatementDraft.put_comm {e' : Element} (h : e ≠ e') (a b d : StatementDraft) :
    put e a (put e' b d) = put e' b (put e a d) := by
  cases e <;> cases e' <;> first | rfl | exact absurd rfl h

lemma readElement_eq_put {v : Json Float64} (h : readElement e v = .ok f) :
    ∃ src, ∀ d, f d = StatementDraft.put e src d := by
  cases e with
  | sid =>
      cases v with
      | str s => cases h; exact ⟨{ sid := s }, fun d => rfl⟩
      | _ => cases h
  | effect =>
      obtain ⟨x, -, rfl⟩ := map_eq_ok.1 h
      exact ⟨{ effect := some x }, fun d => rfl⟩
  | action =>
      obtain ⟨x, -, rfl⟩ := map_eq_ok.1 h
      exact ⟨{ action := some x }, fun d => rfl⟩
  | notAction =>
      obtain ⟨x, -, rfl⟩ := map_eq_ok.1 h
      exact ⟨{ notAction := some x }, fun d => rfl⟩
  | resource =>
      obtain ⟨x, -, rfl⟩ := map_eq_ok.1 h
      exact ⟨{ resource := some x }, fun d => rfl⟩
  | notResource =>
      obtain ⟨x, -, rfl⟩ := map_eq_ok.1 h
      exact ⟨{ notResource := some x }, fun d => rfl⟩
  | principal =>
      obtain ⟨x, -, rfl⟩ := map_eq_ok.1 h
      exact ⟨{ principal := some x }, fun d => rfl⟩
  | notPrincipal =>
      obtain ⟨x, -, rfl⟩ := map_eq_ok.1 h
      exact ⟨{ notPrincipal := some x }, fun d => rfl⟩
  | condition =>
      obtain ⟨x, -, rfl⟩ := map_eq_ok.1 h
      exact ⟨{ conditions := x }, fun d => rfl⟩

lemma readElement_canon {v : Json Float64} {room : ℕ} (hv : v.Fits room)
    (h : readElement e v = .ok f) : readElement e v.canon = .ok f := by
  cases e with
  | sid =>
      cases v with
      | str s => exact h
      | _ => cases h
  | effect =>
      cases v with
      | str s => exact h
      | _ => cases h
  | principal =>
      obtain ⟨x, hx, rfl⟩ := map_eq_ok.1 h
      exact map_eq_ok.2 ⟨x, decodePrincipal_canon hv hx, rfl⟩
  | notPrincipal =>
      obtain ⟨x, hx, rfl⟩ := map_eq_ok.1 h
      exact map_eq_ok.2 ⟨x, decodePrincipal_canon hv hx, rfl⟩
  | condition =>
      obtain ⟨x, hx, rfl⟩ := map_eq_ok.1 h
      exact map_eq_ok.2 ⟨x, decodeCondition_canon hv hx, rfl⟩
  | _ =>
      obtain ⟨x, hx, rfl⟩ := map_eq_ok.1 h
      exact map_eq_ok.2 ⟨x, stringOrArray_canon hx, rfl⟩

lemma Element.name_of_ofName? {k : String} (h : ofName? k = some e) : e.name = k := by
  simpa using find?_some h

lemma statementMember_of_some (h : Element.ofName? m.1 = some e) :
    statementMember m = readElement e m.2 := by
  rw [statementMember, h]

lemma statementMember_of_none (h : Element.ofName? m.1 = none) : statementMember m = .ok id := by
  rw [statementMember, h]

lemma statementMember_canon {room : ℕ} (hv : m.2.Fits room) (h : statementMember m = .ok f) :
    statementMember (m.1, m.2.canon) = .ok f := by
  cases hname : Element.ofName? m.1 with
  | some e =>
      rw [statementMember_of_some hname] at h
      rw [statementMember_of_some (m := (m.1, m.2.canon)) hname]
      exact readElement_canon hv h
  | none =>
      rw [statementMember_of_none hname] at h
      rwa [statementMember_of_none (m := (m.1, m.2.canon)) hname]

/-- What members of different names set does not interfere. -/
lemma statementMember_comm {m' : String × Json Float64} {f' : StatementDraft → StatementDraft}
    (hne : m.1 ≠ m'.1) (h : statementMember m = .ok f) (h' : statementMember m' = .ok f')
    (d : StatementDraft) : f (f' d) = f' (f d) := by
  cases hname : Element.ofName? m.1 with
  | none =>
      rw [statementMember_of_none hname] at h
      cases h
      rfl
  | some e =>
      cases hname' : Element.ofName? m'.1 with
      | none =>
          rw [statementMember_of_none hname'] at h'
          cases h'
          rfl
      | some e' =>
          rw [statementMember_of_some hname] at h
          rw [statementMember_of_some hname'] at h'
          obtain ⟨src, hsrc⟩ := readElement_eq_put h
          obtain ⟨src', hsrc'⟩ := readElement_eq_put h'
          have hee : e ≠ e' := by
            rintro rfl
            exact hne ((Element.name_of_ofName? hname).symm.trans (Element.name_of_ofName? hname'))
          simp only [hsrc, hsrc', StatementDraft.put_comm hee]

section

variable {ms ms' : Members Float64} {room : ℕ} {d : StatementDraft}

lemma readMembers_perm (hkeys : (ms.map Prod.fst).Nodup) (hperm : ms'.Perm ms)
    (h : readMembers ms = .ok d) : readMembers ms' = .ok d :=
  runSets_perm (fun _ _ _ _ hne hf hf' d => statementMember_comm hne hf hf' d) hkeys hperm h

lemma nodup_canonMembers (hkeys : (ms.map Prod.fst).Nodup) :
    ((ms.map fun m => (m.1, m.2.canon)).map Prod.fst).Nodup := by
  simpa [Function.comp_def] using hkeys

lemma readMembers_canon (hkeys : (ms.map Prod.fst).Nodup) (hms : ∀ m ∈ ms, m.2.Fits room)
    (h : readMembers ms = .ok d) : readMembers (canonMembers ms) = .ok d := by
  refine readMembers_perm (nodup_canonMembers hkeys) (canonMembers_perm ms) ?_
  refine runSets_map (t := id) (fun m hm f hf => ?_) h
  exact ⟨f, statementMember_canon (hms m hm) hf, fun _ => rfl⟩

/-- What is read for an element is as at the start, or a member of its name set it. -/
lemma readMembers_element {α : Type} {read : StatementDraft → α}
    (hothers : ∀ e' ≠ e, ∀ src d, read (StatementDraft.put e' src d) = read d)
    (h : readMembers ms = .ok d) :
    read d = read {} ∨
      ∃ v f d₀, (e.name, v) ∈ ms ∧ readElement e v = .ok f ∧ read d = read (f d₀) := by
  induction ms using List.reverseRecOn generalizing d with
  | nil =>
      cases h
      exact Or.inl rfl
  | append_singleton ms m ih =>
      obtain ⟨d₀, f, hd₀, hf, rfl⟩ := runSets_concat.1 h
      have hrest : read (f d₀) = read d₀ → read (f d₀) = read {} ∨
          ∃ v g d₁, (e.name, v) ∈ ms ++ [m] ∧ readElement e v = .ok g ∧
            read (f d₀) = read (g d₁) := by
        intro hsame
        rw [hsame]
        refine (ih hd₀).imp_right ?_
        rintro ⟨v, g, d₁, hv, hg, hread⟩
        exact ⟨v, g, d₁, mem_append_left _ hv, hg, hread⟩
      cases hname : Element.ofName? m.1 with
      | none =>
          rw [statementMember_of_none hname] at hf
          cases hf
          exact hrest rfl
      | some e' =>
          rw [statementMember_of_some hname] at hf
          by_cases he : e' = e
          · subst he
            refine Or.inr ⟨m.2, f, d₀, mem_append_right _ (mem_singleton.2 ?_), hf, rfl⟩
            rw [Element.name_of_ofName? hname]
          · obtain ⟨src, hsrc⟩ := readElement_eq_put hf
            refine hrest ?_
            rw [hsrc]
            exact hothers e' he src d₀

lemma unknownMembers_perm (h : (ms'.map Prod.fst).Perm (ms.map Prod.fst)) :
    unknownMembers ms' = unknownMembers ms := by
  refine List.Perm.eq_of_pairwise ?_ (sortOn_sorted _ _) (sortOn_sorted _ _)
    ((perm_sortOn _ _).trans ((h.filter _).trans (perm_sortOn _ _).symm))
  intro a b _ _ hab hba
  exact le_antisymm hab hba

/-- A statement is decoded alike from its canonical form. -/
theorem decodeStatement_canon {v : Json Float64} {st : Statement} (hv : v.Fits room)
    (h : decodeStatement v = .ok st) : decodeStatement v.canon = .ok st := by
  cases v with
  | obj ms =>
      cases hv with
      | obj room _ hkeys hms =>
      rw [decodeStatement, bind_eq_ok] at h
      obtain ⟨d, hd, h⟩ := h
      have htext := writeCanonical_canon (.obj ms)
      rw [Json.canon_obj] at htext ⊢
      have hnames : ((canonMembers ms).map Prod.fst).Perm
          (ms.map Prod.fst) := by
        simpa [Function.comp_def] using (canonMembers_perm ms).map Prod.fst
      rw [decodeStatement, readMembers_canon hkeys hms hd, ok_bind, htext,
        unknownMembers_perm hnames]
      exact h
  | _ => cases h

/-! ## Documents -/

def DocumentDraft.canon (d : DocumentDraft) : DocumentDraft :=
  { d with stmts := d.stmts.map Json.canon }

lemma documentMember_canon {f : DocumentDraft → DocumentDraft} (h : documentMember m = .ok f) :
    ∃ f', documentMember (m.1, m.2.canon) = .ok f' ∧ ∀ d, f' d.canon = (f d).canon := by
  obtain ⟨k, v⟩ := m
  unfold documentMember at h ⊢
  split_ifs at h ⊢
  · cases v with
    | str s => cases h; exact ⟨_, rfl, fun d => rfl⟩
    | _ => cases h
  · cases v with
    | str s => cases h; exact ⟨_, rfl, fun d => rfl⟩
    | _ => cases h
  · cases h
    exact ⟨_, rfl, fun d => rfl⟩
  · cases h
    exact ⟨_, rfl, fun d => rfl⟩

/-- Everything that a member of a document can set. -/
lemma documentMember_cases {f : DocumentDraft → DocumentDraft} (h : documentMember m = .ok f) :
    (m.1 = "Version" ∧ ∃ s, f = fun d => { d with version := s }) ∨
      (m.1 = "Id" ∧ ∃ s, f = fun d => { d with id := s }) ∨
        (m.1 = "Statement" ∧ f = fun d => { d with stmts := some m.2 }) ∨ f = id := by
  obtain ⟨k, v⟩ := m
  unfold documentMember at h
  split_ifs at h with hversion hid hstmt
  · cases v with
    | str s => cases h; exact Or.inl ⟨hversion, s, rfl⟩
    | _ => cases h
  · cases v with
    | str s => cases h; exact Or.inr (Or.inl ⟨hid, s, rfl⟩)
    | _ => cases h
  · cases h
    exact Or.inr (Or.inr (Or.inl ⟨hstmt, rfl⟩))
  · cases h
    exact Or.inr (Or.inr (Or.inr rfl))

lemma documentMember_comm {m' : String × Json Float64} {f f' : DocumentDraft → DocumentDraft}
    (hne : m.1 ≠ m'.1) (h : documentMember m = .ok f) (h' : documentMember m' = .ok f')
    (d : DocumentDraft) : f (f' d) = f' (f d) := by
  rcases documentMember_cases h with ⟨hk, s, rfl⟩ | ⟨hk, s, rfl⟩ | ⟨hk, rfl⟩ | rfl <;>
    rcases documentMember_cases h' with ⟨hk', s', rfl⟩ | ⟨hk', s', rfl⟩ | ⟨hk', rfl⟩ | rfl <;>
      first
        | rfl
        | exact absurd (hk.trans hk'.symm) hne

lemma readDocument_perm {d : DocumentDraft} (hkeys : (ms.map Prod.fst).Nodup)
    (hperm : ms'.Perm ms) (h : readDocument ms = .ok d) : readDocument ms' = .ok d :=
  runSets_perm (fun _ _ _ _ hne hf hf' d => documentMember_comm hne hf hf' d) hkeys hperm h

lemma readDocument_canon {d : DocumentDraft} (hkeys : (ms.map Prod.fst).Nodup)
    (h : readDocument ms = .ok d) : readDocument (canonMembers ms) = .ok d.canon := by
  refine readDocument_perm (nodup_canonMembers hkeys) (canonMembers_perm ms) ?_
  exact runSets_map (t := DocumentDraft.canon) (fun m _ f hf => documentMember_canon hf) h

end

section

variable {v stmts : Json Float64} {doc : PolicyDocument}

lemma statementList_canon {list : List (Json Float64)} (h : statementList stmts = .ok list) :
    statementList stmts.canon = .ok (list.map Json.canon) := by
  cases stmts with
  | obj ms =>
      cases h
      rw [Json.canon_obj, map_singleton, Json.canon_obj]
      rfl
  | arr els =>
      cases h
      rw [Json.canon_arr]
      rfl
  | _ => cases h

lemma statementList_fits {list : List (Json Float64)} {room : ℕ} (hv : stmts.Fits room)
    (h : statementList stmts = .ok list) : ∀ x ∈ list, ∃ room, x.Fits room := by
  intro x hx
  cases stmts with
  | obj ms =>
      cases h
      rw [mem_singleton.1 hx]
      exact ⟨room, hv⟩
  | arr els =>
      cases h
      cases hv with
      | arr room _ hels => exact ⟨room, hels x hx⟩
  | _ => cases h

lemma decodeStatementAt_canon {sv : Json Float64 × ℕ} {st : Statement} {room : ℕ}
    (hv : sv.1.Fits room) (h : decodeStatementAt sv = .ok st) :
    decodeStatementAt (sv.1.canon, sv.2) = .ok st :=
  mapError_eq_ok.2 (decodeStatement_canon hv (mapError_eq_ok.1 h))

/-- The `Statement` element that was read is a member of the document. -/
lemma mem_of_readDocument {ms : Members Float64} {d : DocumentDraft}
    (h : readDocument ms = .ok d) (hstmts : d.stmts = some stmts) : ("Statement", stmts) ∈ ms := by
  induction ms using List.reverseRecOn generalizing d with
  | nil =>
      cases h
      cases hstmts
  | append_singleton ms m ih =>
      obtain ⟨d₀, f, hd₀, hf, rfl⟩ := runSets_concat.1 h
      rcases documentMember_cases hf with ⟨-, s, rfl⟩ | ⟨-, s, rfl⟩ | ⟨hk, rfl⟩ | rfl
      · exact mem_append_left _ (ih hd₀ hstmts)
      · exact mem_append_left _ (ih hd₀ hstmts)
      · refine mem_append_right _ (mem_singleton.2 ?_)
        obtain ⟨k, v⟩ := m
        cases hk
        cases hstmts
        rfl
      · exact mem_append_left _ (ih hd₀ hstmts)

/-- So is a policy document. -/
theorem decodeDocument_canon {room : ℕ} (hv : v.Fits room) (h : decodeDocument v = .ok doc) :
    decodeDocument v.canon = .ok doc := by
  cases v with
  | obj ms =>
      cases hv with
      | obj room _ hkeys hms =>
      rw [decodeDocument, bind_eq_ok] at h
      obtain ⟨d, hd, h⟩ := h
      rw [Json.canon_obj, decodeDocument, readDocument_canon hkeys hd, ok_bind]
      cases hstmts : d.stmts with
      | none =>
          rw [hstmts] at h
          cases h
      | some stmts =>
          simp only [hstmts, bind_eq_ok] at h
          obtain ⟨list, hlist, sts, hsts, hdoc⟩ := h
          have hfits := statementList_fits (hms _ (mem_of_readDocument hd hstmts)) hlist
          have hsts' : ((list.map Json.canon).zipIdx).mapM decodeStatementAt = .ok sts := by
            rw [zipIdx_map]
            refine mapM_map_eq_ok (fun sv hsv st hst => ?_) hsts
            obtain ⟨room', hroom'⟩ := hfits sv.1 (fst_mem_of_mem_zipIdx hsv)
            exact decodeStatementAt_canon hroom' hst
          simp only [DocumentDraft.canon, hstmts, Option.map_some, statementList_canon hlist,
            ok_bind, hsts']
          exact hdoc
  | _ => cases h

end

/-! ## Canonical texts -/

lemma writeCanonical_obj_ends (ms : Members Float64) :
    ∃ bs, writeCanonical (.obj ms) = ascii '{' :: (bs ++ [ascii '}']) :=
  ⟨_, rfl⟩

/-- A canonical object text is not URL-decoded. -/
lemma decodePolicyText_writeCanonical (ms : Members Float64) :
    decodePolicyText (writeCanonical (.obj ms)) = .ok (writeCanonical (.obj ms)) := by
  obtain ⟨bs, hbs⟩ := writeCanonical_obj_ends ms
  have hedge : edge (ascii '{') = true ∧ edge (ascii '}') = true := by decide +kernel
  rw [decodePolicyText, hbs, trimSpaceBytes_of_ends hedge.1 hedge.2]
  rfl

section

variable {v : Json Float64}

/-- The canonical text of a policy decodes to the policy. -/
theorem decodePolicyDocument_writeCanonical {doc : PolicyDocument}
    (hv : v.Fits (maxJSONDepth + 1)) (h : decodeDocument v = .ok doc) :
    decodePolicyDocument (writeCanonical v) = .ok doc := by
  cases v with
  | obj ms =>
      rw [decodePolicyDocument, decodePolicyText_writeCanonical, ok_bind,
        parseJSON_writeCanonical hv]
      simp only [Except.mapError, ok_bind, decodeDocument_canon hv h]
  | _ => cases h

end

end AuthSec
