import AuthSec.Collection.Forms

/-!
# What a collector counts

Every listed resource is read once at most, and the counts of a form add up, whatever is listed and
however the reads end.

* `FormAcc.Counts`: the invariant of the counts, with the resources that are still to be read;
* `FormAcc.listItems_listed`: what counting the items of a listing does;
* `FormAcc.finish_complete`: what is left where the state is complete.
-/

namespace AuthSec

open List

/-! ## Counts -/

/-- The counts of a form, with the listed resources that are still to be read. -/
structure FormAcc.Counts (a : FormAcc) (pending : List String) : Prop where
  seen_nodup : a.seen.Nodup
  enumerated : a.enumerated = a.seen.length
  readOK : a.readOK = a.reads.length
  nodup : (a.reads.map PolicyRead.arn ++ pending).Nodup
  listed : ∀ x ∈ a.reads.map PolicyRead.arn ++ pending, x ∈ a.seen
  bound : a.readOK + a.readFailed + pending.length ≤ a.enumerated

/-- The counts are untouched. -/
structure FormAcc.SameCounts (a b : FormAcc) : Prop where
  seen : b.seen = a.seen
  enumerated : b.enumerated = a.enumerated
  readOK : b.readOK = a.readOK
  readFailed : b.readFailed = a.readFailed
  reads : b.reads = a.reads

/-- What the listings left is untouched. -/
structure FormAcc.SameListing (a b : FormAcc) : Prop where
  seen : b.seen = a.seen
  listErr : b.listErr = a.listErr
  notOffered : b.notOffered = a.notOffered
  childListFailed : b.childListFailed = a.childListFailed

namespace FormAcc

section

variable {a b c : FormAcc} {arn readCall : String} {pending : List String}

lemma SameListing.refl (a : FormAcc) : a.SameListing a :=
  ⟨rfl, rfl, rfl, rfl⟩

lemma SameListing.trans (h : a.SameListing b) (h' : b.SameListing c) : a.SameListing c :=
  ⟨h'.seen.trans h.seen, h'.listErr.trans h.listErr, h'.notOffered.trans h.notOffered,
    h'.childListFailed.trans h.childListFailed⟩

lemma counts_newAcc (form region listCall : String) : (newAcc form region listCall).Counts [] :=
  ⟨nodup_nil, rfl, rfl, nodup_nil, fun _ h => absurd h not_mem_nil, le_rfl⟩

lemma Counts.congr (h : a.Counts pending) (hab : a.SameCounts b) : b.Counts pending := by
  obtain ⟨hseen, henum, hok, hfailed, hreads⟩ := hab
  refine ⟨?_, ?_, ?_, ?_, ?_, ?_⟩
  · rw [hseen]
    exact h.seen_nodup
  · rw [henum, hseen]
    exact h.enumerated
  · rw [hok, hreads]
    exact h.readOK
  · rw [hreads]
    exact h.nodup
  · rw [hreads, hseen]
    exact h.listed
  · rw [hok, hfailed, henum]
    exact h.bound

lemma sameCounts_noteFirst (a : FormAcc) (readCall : String) (e : CallError) :
    a.SameCounts (a.noteFirst readCall e) := by
  rw [noteFirst]
  split_ifs <;> exact ⟨rfl, rfl, rfl, rfl, rfl⟩

lemma sameListing_noteFirst (a : FormAcc) (readCall : String) (e : CallError) :
    a.SameListing (a.noteFirst readCall e) := by
  rw [noteFirst]
  split_ifs <;> exact ⟨rfl, rfl, rfl, rfl⟩

/-- A resource that stays unread is no longer pending. -/
lemma Counts.unread (h : a.Counts (arn :: pending)) : a.Counts pending := by
  obtain ⟨hseen, henum, hok, hnodup, hlisted, hbound⟩ := h
  refine ⟨hseen, henum, hok, hnodup.sublist ?_, fun x hx => hlisted x ?_, ?_⟩
  · exact (sublist_cons_self arn pending).append_left _
  · exact mem_append.2 ((mem_append.1 hx).imp_right (List.mem_cons_of_mem arn))
  · exact (Nat.add_le_add_left (Nat.le_succ _) _).trans hbound

/-- A pending resource that was read. -/
lemma Counts.recorded (h : a.Counts (arn :: pending)) (present : Bool) (text : String) (t : Time) :
    Counts { a with readOK := a.readOK + 1, reads := a.reads ++ [⟨arn, present, text, t⟩] }
      pending := by
  obtain ⟨hseen, henum, hok, hnodup, hlisted, hbound⟩ := h
  have harns : List.map PolicyRead.arn (a.reads ++ [⟨arn, present, text, t⟩]) ++ pending =
      a.reads.map PolicyRead.arn ++ arn :: pending := by
    rw [map_append, append_assoc]
    rfl
  refine ⟨hseen, henum, ?_, ?_, ?_, ?_⟩
  · simp [hok]
  · simp only [harns]
    exact hnodup
  · simp only [harns]
    exact hlisted
  · simp only [length_cons] at hbound ⊢
    omega

/-- A read that failed leaves the reads as they are. -/
lemma Counts.failed (h : a.Counts (arn :: pending)) :
    Counts { a with readFailed := a.readFailed + 1 } pending := by
  obtain ⟨hseen, henum, hok, hnodup, hlisted, hbound⟩ := h.unread
  have hroom := h.bound
  refine ⟨hseen, henum, hok, hnodup, hlisted, ?_⟩
  simp only [length_cons] at hroom ⊢
  omega

/-- What a failed read leaves. -/
lemma read_failed {e : CallError} (he : e.isAbsent = false) (shown : String) (t : Time) :
    SameCounts { a with readFailed := a.readFailed + 1 } (a.read shown readCall (.error e) t) := by
  have hnote := sameCounts_noteFirst { a with readFailed := a.readFailed + 1 } readCall e
  simp only [read, he, Bool.false_eq_true, if_false]
  exact ⟨hnote.seen, hnote.enumerated, hnote.readOK, hnote.readFailed, hnote.reads⟩

lemma Counts.read (h : a.Counts (arn :: pending)) (r : PolicyResult) (t : Time) :
    (a.read arn readCall r t).Counts pending := by
  cases r with
  | ok result => exact h.recorded _ _ _
  | error e =>
      cases he : e.isAbsent with
      | true =>
          simp only [FormAcc.read, he, if_true]
          exact h.recorded _ _ _
      | false => exact h.failed.congr (read_failed he arn t)

lemma sameListing_read (a : FormAcc) (arn readCall : String) (r : PolicyResult) (t : Time) :
    a.SameListing (a.read arn readCall r t) := by
  cases r with
  | ok result => exact ⟨rfl, rfl, rfl, rfl⟩
  | error e =>
      have hnote := sameListing_noteFirst { a with readFailed := a.readFailed + 1 } readCall e
      rw [FormAcc.read]
      split_ifs
      · exact ⟨rfl, rfl, rfl, rfl⟩
      · exact ⟨hnote.seen, hnote.listErr, hnote.notOffered, hnote.childListFailed⟩

lemma isNew_iff : a.isNew arn = true ↔ arn ≠ "" ∧ arn ∉ a.seen := by
  simp [isNew]

lemma Counts.perm {pending' : List String} (h : a.Counts pending) (hperm : pending.Perm pending') :
    a.Counts pending' := by
  have happend := hperm.append_left (a.reads.map PolicyRead.arn)
  refine ⟨h.seen_nodup, h.enumerated, h.readOK, happend.nodup_iff.1 h.nodup, fun x hx => ?_, ?_⟩
  · exact h.listed x (happend.mem_iff.2 hx)
  · rw [← hperm.length_eq]
    exact h.bound

/-- A new resource is pending. -/
lemma Counts.enumerate (h : a.Counts pending) (hnew : a.isNew arn = true) :
    (a.enumerate arn).Counts (arn :: pending) := by
  have hnot := (isNew_iff.1 hnew).2
  have hmiddle : (a.reads.map PolicyRead.arn ++ arn :: pending).Perm
      (arn :: (a.reads.map PolicyRead.arn ++ pending)) := List.perm_middle
  refine ⟨nodup_cons.2 ⟨hnot, h.seen_nodup⟩, ?_, h.readOK, ?_, fun x hx => ?_, ?_⟩
  · simp [FormAcc.enumerate, h.enumerated]
  · exact hmiddle.nodup_iff.2 (nodup_cons.2 ⟨fun hmem => hnot (h.listed arn hmem), h.nodup⟩)
  · rcases mem_cons.1 (hmiddle.mem_iff.1 hx) with rfl | hx
    · exact mem_cons_self ..
    · exact List.mem_cons_of_mem arn (h.listed x hx)
  · have hbound := h.bound
    simp only [FormAcc.enumerate, length_cons]
    omega

end

/-! ## Listings -/

section

variable {ι : Type} {identify : ι → Ident} {a : FormAcc}

/-- The listed items are counted, and those to be read are pending. -/
structure ListedItems (a : FormAcc) (st : FormAcc × List (String × ι)) : Prop where
  counts : st.1.Counts (st.2.map Prod.fst)
  mono : ∀ id ∈ a.seen, id ∈ st.1.seen
  listErr : st.1.listErr = a.listErr
  notOffered : st.1.notOffered = a.notOffered
  childListFailed : st.1.childListFailed = a.childListFailed

lemma mem_of_not_isNew {id : String} (hnew : a.isNew id = false) (hne : id ≠ "") : id ∈ a.seen := by
  by_contra hnot
  rw [isNew_iff.2 ⟨hne, hnot⟩] at hnew
  cases hnew

/-- What counting an item does: nothing, or its identifier is new and it is counted. -/
lemma listItem_cases (st : FormAcc × List (String × ι)) (x : ι) :
    (listItem identify st x = st ∧ ∀ id, (identify x).id = some id → id ∈ st.1.seen) ∨
    ∃ id, (identify x).id = some id ∧ st.1.isNew id = true ∧
      (listItem identify st x = (st.1.enumerate id, st.2 ++ [(id, x)]) ∨
        ∃ shown, listItem identify st x =
          ((st.1.enumerate id).read shown st.1.listCall (.error {}) zeroTime, st.2)) := by
  have hknown : ∀ id : String, st.1.isNew id = false → ∀ id', (if id = "" then none else some id) =
      some id' → id' ∈ st.1.seen := by
    intro id hnew id' hid
    split_ifs at hid with hempty
    cases hid
    exact mem_of_not_isNew hnew hempty
  unfold listItem
  cases hident : identify x with
  | skip => exact Or.inl ⟨rfl, fun id hid => by cases hid⟩
  | named id =>
      cases hnew : st.1.isNew id with
      | false => exact Or.inl ⟨if_neg (by simp [hnew]), hknown id hnew⟩
      | true => exact Or.inr ⟨id, if_neg (isNew_iff.1 hnew).1, hnew, Or.inl (if_pos hnew)⟩
  | unreadable id shown =>
      cases hnew : st.1.isNew id with
      | false => exact Or.inl ⟨if_neg (by simp [hnew]), hknown id hnew⟩
      | true =>
          exact Or.inr ⟨id, if_neg (isNew_iff.1 hnew).1, hnew, Or.inr ⟨shown, if_pos hnew⟩⟩

lemma ListedItems.item {st : FormAcc × List (String × ι)} (h : ListedItems a st)
    (identify : ι → Ident) (x : ι) :
    ListedItems a (listItem identify st x) ∧
      (∀ id ∈ st.1.seen, id ∈ (listItem identify st x).1.seen) ∧
      ∀ id, (identify x).id = some id → id ∈ (listItem identify st x).1.seen := by
  rcases listItem_cases st x with ⟨heq, hknown⟩ | ⟨id, hid, hnew, hitem⟩
  · rw [heq]
    exact ⟨h, fun _ hid => hid, hknown⟩
  · have hcounts := h.counts.enumerate hnew
    have hsame : ∀ id', (identify x).id = some id' → id' ∈ (st.1.enumerate id).seen := by
      intro id' hid'
      rw [hid] at hid'
      cases hid'
      exact mem_cons_self ..
    rcases hitem with heq | ⟨shown, heq⟩
    · rw [heq]
      refine ⟨⟨hcounts.perm ?_, fun id' hid' => List.mem_cons_of_mem id (h.mono id' hid'),
        h.listErr, h.notOffered, h.childListFailed⟩, fun _ => List.mem_cons_of_mem id, hsame⟩
      rw [map_append]
      exact (perm_append_singleton id _).symm
    · have hread := sameListing_read (st.1.enumerate id) shown st.1.listCall (.error {}) zeroTime
      rw [heq]
      refine ⟨⟨?_, fun id' hid' => ?_, hread.listErr.trans h.listErr,
        hread.notOffered.trans h.notOffered, hread.childListFailed.trans h.childListFailed⟩,
        fun id' hid' => ?_, fun id' hid' => ?_⟩
      · have habsent : CallError.isAbsent {} = false := by decide
        exact hcounts.failed.congr (read_failed habsent shown zeroTime)
      · rw [hread.seen]
        exact List.mem_cons_of_mem id (h.mono id' hid')
      · rw [hread.seen]
        exact List.mem_cons_of_mem id hid'
      · rw [hread.seen]
        exact hsame id' hid'

/-- The listed items are counted, and their identifiers are known. -/
lemma listItems_listed (h : a.Counts []) (identify : ι → Ident) (items : List ι) :
    ListedItems a (a.listItems identify items) ∧
      ∀ x ∈ items, ∀ id, (identify x).id = some id → id ∈ (a.listItems identify items).1.seen := by
  unfold listItems
  induction items using List.reverseRecOn with
  | nil => exact ⟨⟨h, fun _ hid => hid, rfl, rfl, rfl⟩, fun x hx => absurd hx not_mem_nil⟩
  | append_singleton items x ih =>
      rw [foldl_append, foldl_cons, foldl_nil]
      obtain ⟨hlisted, hmono, hitem⟩ := ih.1.item identify x
      refine ⟨hlisted, fun y hy id hid => ?_⟩
      rcases mem_append.1 hy with hy | hy
      · exact hmono id (ih.2 y hy id hid)
      · rw [mem_singleton.1 hy] at hid
        exact hitem id hid

/-- Where every item can be read, the known identifiers are those before and the pending ones. -/
lemma listItems_pending (hnamed : ∀ x, ∃ arn, identify x = .named arn) (a : FormAcc)
    (items : List ι) :
    ∀ id ∈ (a.listItems identify items).1.seen,
      id ∈ a.seen ∨ id ∈ (a.listItems identify items).2.map Prod.fst := by
  unfold listItems
  induction items using List.reverseRecOn with
  | nil => exact fun id hid => Or.inl hid
  | append_singleton items x ih =>
      rw [foldl_append, foldl_cons, foldl_nil]
      obtain ⟨arn, harn⟩ := hnamed x
      intro id hid
      unfold listItem at hid ⊢
      simp only [harn] at hid ⊢
      split_ifs at hid ⊢ with hnew
      · rw [map_append]
        rcases mem_cons.1 hid with rfl | hid
        · exact Or.inr (mem_append_right _ (mem_singleton.2 rfl))
        · exact (ih id hid).imp_right (mem_append_left _)
      · exact ih id hid

end

section

variable {a : FormAcc} {err : Option CallError}

lemma listFailed_spec (a : FormAcc) (e : CallError) :
    a.SameCounts (a.listFailed e) ∧ (a.listFailed e).childListFailed = a.childListFailed ∧
      ((a.listFailed e).listErr = some e ∨ (a.listFailed e).notOffered = true) := by
  have hcounts := sameCounts_noteFirst { a with listErr := some e } a.listCall e
  have hlisting := sameListing_noteFirst { a with listErr := some e } a.listCall e
  rw [listFailed]
  split_ifs
  · exact ⟨⟨rfl, rfl, rfl, rfl, rfl⟩, rfl, Or.inr rfl⟩
  · exact ⟨⟨hcounts.seen, hcounts.enumerated, hcounts.readOK, hcounts.readFailed, hcounts.reads⟩,
      hlisting.childListFailed, Or.inl hlisting.listErr⟩

/-- The error of a listing leaves a mark, and nothing else changes. -/
lemma listingEnded_spec (a : FormAcc) (err : Option CallError) :
    a.SameCounts (a.listingEnded err) ∧ (a.listingEnded err).childListFailed = a.childListFailed ∧
      ((a.listingEnded err).listErr = none → (a.listingEnded err).notOffered = false → err = none) := by
  cases err with
  | none => exact ⟨⟨rfl, rfl, rfl, rfl, rfl⟩, rfl, fun _ _ => rfl⟩
  | some e =>
      obtain ⟨hcounts, hchild, hmark⟩ := listFailed_spec a e
      refine ⟨hcounts, hchild, fun hnone hoffered => ?_⟩
      rcases hmark with h | h
      · rw [listingEnded, h] at hnone
        cases hnone
      · rw [listingEnded, h] at hoffered
        cases hoffered

/-- A form that is offered everywhere keeps the error of its listing. -/
lemma listErr_newAcc {form region listCall : String} (hform : regionLimitedForms.lookup form = none) :
    ((newAcc form region listCall).listingEnded err).listErr = err := by
  cases err with
  | none => rfl
  | some e =>
      have hoffered : formNotOfferedIn form region e = false := by simp [formNotOfferedIn, hform]
      have hnote := sameListing_noteFirst { newAcc form region listCall with listErr := some e }
        listCall e
      rw [listingEnded, listFailed, if_neg (by simp [newAcc, hoffered])]
      exact hnote.listErr

lemma childListing_spec (a : FormAcc) (err : Option CallError) (parentARN call : String) :
    a.SameCounts (a.childListing parentARN call err) ∧
      (a.childListing parentARN call err).listErr = a.listErr ∧
      (a.childListing parentARN call err).notOffered = a.notOffered ∧
      ((a.childListing parentARN call err).childListFailed = 0 →
        a.childListFailed = 0 ∧ err = none) := by
  cases err with
  | none => exact ⟨⟨rfl, rfl, rfl, rfl, rfl⟩, rfl, rfl, fun h => ⟨h, rfl⟩⟩
  | some e =>
      let b : FormAcc := { a with
        childListAttempts := a.childListAttempts + 1
        childListFailed := a.childListFailed + 1
        childListDenied := a.childListDenied + if e.isDenied then 1 else 0 }
      have hcounts := sameCounts_noteFirst b call e
      have hlisting := sameListing_noteFirst b call e
      refine ⟨⟨hcounts.seen, hcounts.enumerated, hcounts.readOK, hcounts.readFailed, hcounts.reads⟩,
        hlisting.listErr, hlisting.notOffered, fun h => ?_⟩
      have hfailed : a.childListFailed + 1 = 0 := hlisting.childListFailed.symm.trans h
      cases hfailed

/-! ## Complete forms -/

lemma finish_eq_cover (a : FormAcc) : ∃ state reason, a.finish = a.cover state reason := by
  rw [finish]
  split_ifs
  · exact ⟨_, _, rfl⟩
  · exact ⟨_, _, rfl⟩
  · split
    · rw [finishListing]
      split_ifs <;> exact ⟨_, _, rfl⟩
    · rw [finishReads]
      split_ifs <;> exact ⟨_, _, rfl⟩

/-- What a complete form has: no listing failed and every listed resource was read. -/
structure IsComplete (a : FormAcc) : Prop where
  listErr : a.listErr = none
  notOffered : a.notOffered = false
  childListFailed : a.childListFailed = 0
  readOK : a.readOK = a.enumerated

/-- A form of a service that the region has is only complete if nothing failed. -/
theorem finish_complete (hstate : a.finish.state = .complete)
    (hreason : a.finish.reason ≠ notOfferedReason a.finish.region) : a.IsComplete := by
  rw [finish] at hstate hreason
  split_ifs at hstate hreason with hclient hoffered
  · cases hstate
  · exact absurd rfl hreason
  · cases hlist : a.listErr with
    | some e =>
        rw [hlist] at hstate
        simp only [finishListing] at hstate
        split_ifs at hstate <;> cases hstate
    | none =>
        rw [hlist] at hstate
        simp only [finishReads] at hstate
        split_ifs at hstate with hdenied hchild hrefused hfailed hread <;>
          cases hstate
        exact ⟨hlist, by simpa using hoffered, by omega, not_not.1 hread⟩

end

/-- Every known identifier has one read, where all were read. -/
lemma Counts.count_eq_one {a : FormAcc} (h : a.Counts []) (hall : a.readOK = a.enumerated)
    {id : String} (hid : id ∈ a.seen) : (a.reads.map PolicyRead.arn).count id = 1 := by
  have hnodup : (a.reads.map PolicyRead.arn).Nodup := by
    have hn := h.nodup
    rwa [append_nil] at hn
  have hsubset : a.reads.map PolicyRead.arn ⊆ a.seen := by
    intro x hx
    exact h.listed x (mem_append_left _ hx)
  have hlength : a.seen.length ≤ (a.reads.map PolicyRead.arn).length := by
    rw [length_map, ← h.readOK, hall, h.enumerated]
  have hperm := (subperm_of_subset hnodup hsubset).perm_of_length_le hlength
  exact count_eq_one_of_mem hnodup (hperm.mem_iff.2 hid)

end FormAcc

end AuthSec
