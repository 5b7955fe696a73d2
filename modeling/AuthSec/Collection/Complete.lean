import AuthSec.Collection.Counts

/-!
# Complete forms were wholly read

Whatever AWS, the clock and the budget do, a form is complete only if its listings ended and every
listed resource has one read.

* `collectResources_wholly`, `collectChildren_nested`: what the two shapes of a collector return;
* `collect_wholly_read`: what every collector returns.
-/

namespace AuthSec

open List

/-! ## Collectors -/

/-- The listing ended on a page that AWS says is the last one. -/
def LogEnded (pages : List PageLog) : Prop :=
  ∃ p, pages.getLast? = some p ∧ p.more = false

/-- The form was wholly read: the listings ended, those of all its parents too, and every resource
has one read. -/
structure Collected.Whole (c : Collected) : Prop where
  ended : LogEnded c.trace.own
  parents : ∀ cs, c.trace.children = some cs → ∀ id ∈ c.trace.own.flatMap PageLog.ids,
    ∃ log, (id, log) ∈ cs
  children : ∀ cs, c.trace.children = some cs → ∀ log ∈ cs, LogEnded log.2
  once : ∀ id ∈ c.trace.resources, (c.coverage.reads.map PolicyRead.arn).count id = 1

/-- The counts add up, and a form that is complete, and not for want of the service, was wholly
read. -/
structure Collected.WhollyRead (c : Collected) : Prop where
  bound : c.coverage.readOK + c.coverage.readFailed ≤ c.coverage.enumerated
  whole : c.coverage.state = .complete →
    c.coverage.reason ≠ notOfferedReason c.coverage.region → c.Whole

section

variable {σ ι κ : Type} {env : Environment σ} {opts : CollectorOptions}

/-- What one visit of a resource does to the counts. -/
def Visited (a : FormAcc) (arn : String) (b : FormAcc) : Prop :=
  ∃ readCall, (∃ e, b = a.noteFirst readCall e) ∨ ∃ r t, b = a.read arn readCall r t

lemma Visited.counts {a b : FormAcc} {arn : String} {pending : List String} (h : Visited a arn b)
    (ha : a.Counts (arn :: pending)) : b.Counts pending ∧ a.SameListing b := by
  obtain ⟨readCall, ⟨e, rfl⟩ | ⟨r, t, rfl⟩⟩ := h
  · exact ⟨ha.unread.congr (FormAcc.sameCounts_noteFirst a readCall e),
      FormAcc.sameListing_noteFirst a readCall e⟩
  · exact ⟨ha.read r t, FormAcc.sameListing_read a arn readCall r t⟩

lemma readOne_visited {service region arn readCall : String} {fn : Request σ (Bool × String)}
    {a : FormAcc} : Returns (readOne env opts service region arn readCall fn a) (Visited a arn) :=
  readOne_cases.mono fun _ h => ⟨readCall, h⟩

/-- Reading what is pending leaves nothing pending. -/
lemma visits_counts {visit : String → ι → FormAcc → StateM (Scan σ) FormAcc}
    (hvisit : ∀ arn x a, Returns (visit arn x a) (Visited a arn)) {items : List (String × ι)}
    {a : FormAcc} (ha : a.Counts (items.map Prod.fst)) :
    Returns (items.foldlM (fun a x => visit x.1 x.2 a) a) fun b =>
      b.Counts [] ∧ a.SameListing b := by
  refine Returns.foldlM (fun rest b => b.Counts (rest.map Prod.fst) ∧ a.SameListing b) ?_ items a
    ⟨ha, .refl a⟩
  intro x rest b hb
  refine (hvisit x.1 x.2 b).mono fun b' hb' => ?_
  obtain ⟨hcounts, hsame⟩ := hb'.counts hb.1
  exact ⟨hcounts, hb.2.trans hsame⟩

lemma Listing.Ended.log {l : Listing ι} (h : l.Ended) (identify : ι → Ident) :
    LogEnded (l.log identify) := by
  obtain ⟨p, hp, hmore⟩ := h
  exact ⟨_, by rw [Listing.log, getLast?_map, hp]; rfl, hmore⟩

/-- The identifiers of a listing are those of its items. -/
lemma mem_log_ids {l : Listing ι} {identify : ι → Ident} {id : String} :
    id ∈ (l.log identify).flatMap PageLog.ids ↔ ∃ x ∈ l.items, (identify x).id = some id := by
  simp only [Listing.log, Listing.items, List.mem_flatMap, mem_map]
  constructor
  · rintro ⟨_, ⟨p, hp, rfl⟩, hid⟩
    obtain ⟨x, hx, hid⟩ := mem_filterMap.1 hid
    exact ⟨x, ⟨p, hp, hx⟩, hid⟩
  · rintro ⟨x, ⟨p, hp, hx⟩, hid⟩
    exact ⟨_, ⟨p, hp, rfl⟩, mem_filterMap.2 ⟨x, hx, hid⟩⟩

/-- A collector that returned these counts. -/
lemma whollyRead_of_counts {a : FormAcc} {t : Trace} (hcounts : a.Counts [])
    (hwhole : a.IsComplete → Collected.Whole ⟨a.finish, t⟩) :
    Collected.WhollyRead ⟨a.finish, t⟩ := by
  refine ⟨?_, fun hstate hreason => hwhole (FormAcc.finish_complete hstate hreason)⟩
  obtain ⟨state, reason, hcover⟩ := a.finish_eq_cover
  rw [hcover]
  exact hcounts.bound

/-- The reads of the coverage are those that were counted. -/
lemma reads_finish (a : FormAcc) : a.finish.reads = a.reads := by
  obtain ⟨state, reason, hcover⟩ := a.finish_eq_cover
  rw [hcover]
  rfl

lemma withoutClient_wholly (form region listCall : String) :
    (withoutClient form region listCall).WhollyRead := by
  refine ⟨le_rfl, fun hstate => ?_⟩
  cases hstate

lemma withClient_wholly {API : Type} {form region listCall : String} {api : Option API}
    {run : API → StateM (Scan σ) Collected}
    (hrun : ∀ api, Returns (run api) Collected.WhollyRead) :
    Returns (withClient form region listCall api run) Collected.WhollyRead := by
  cases api with
  | none => exact Returns.pure (withoutClient_wholly form region listCall)
  | some api => exact hrun api

lemma withoutSession_wholly (form region listCall : String) (e : CallError) :
    (withoutSession form region listCall e).WhollyRead := by
  obtain ⟨hsame, -, hmark⟩ := FormAcc.listFailed_spec (newAcc form region listCall) e
  refine whollyRead_of_counts ((FormAcc.counts_newAcc form region listCall).congr hsame)
    fun hcomplete => ?_
  rcases hmark with h | h
  · rw [hcomplete.listErr] at h
    cases h
  · rw [hcomplete.notOffered] at h
    cases h

/-- A form that is listed and read resource by resource. -/
theorem collectResources_wholly {form region listCall service : String}
    {next : Option String → Request σ (Page ι)} {identify : ι → Ident}
    {visit : String → ι → FormAcc → StateM (Scan σ) FormAcc}
    (hvisit : ∀ arn x a, Returns (visit arn x a) (Visited a arn)) :
    Returns (collectResources env opts form region listCall service next identify visit)
      Collected.WhollyRead := by
  refine pages_ended.bind fun l hl => ?_
  obtain ⟨hlisted, hknown⟩ := FormAcc.listItems_listed
    (FormAcc.counts_newAcc form region listCall) identify l.items
  obtain ⟨hsame, -, hmark⟩ := FormAcc.listingEnded_spec
    ((newAcc form region listCall).listItems identify l.items).1 l.err
  refine (visits_counts hvisit (hlisted.counts.congr hsame)).bind fun a ha => Returns.pure ?_
  refine whollyRead_of_counts ha.1 fun hcomplete => ⟨?_, ?_, ?_, fun id hid => ?_⟩
  · refine (hl (hmark ?_ ?_)).log identify
    · rw [← ha.2.listErr, hcomplete.listErr]
    · rw [← ha.2.notOffered, hcomplete.notOffered]
  · rintro cs ⟨⟩
  · rintro cs ⟨⟩
  · obtain ⟨x, hx, hid⟩ := mem_log_ids.1 hid
    rw [reads_finish]
    refine ha.1.count_eq_one hcomplete.readOK ?_
    rw [ha.2.seen, hsame.seen]
    exact hknown x hx id hid

/-! ## Forms with parents -/

/-- The counts of a form whose parents listed these pages. -/
structure Nested (own : FormAcc) (a : FormAcc) (logs : List (String × List PageLog)) : Prop where
  counts : a.Counts []
  listErr : a.listErr = own.listErr
  notOffered : a.notOffered = own.notOffered
  known : ∀ c ∈ logs, ∀ id ∈ c.2.flatMap PageLog.ids, id ∈ a.seen
  ended : a.childListFailed = 0 → ∀ c ∈ logs, LogEnded c.2

lemma Nested.start {a : FormAcc} (h : a.Counts []) : Nested a a [] :=
  ⟨h, rfl, rfl, fun _ hc => absurd hc not_mem_nil, fun _ _ hc => absurd hc not_mem_nil⟩

/-- One more parent: its listing joins the logs, and the counts stay right. -/
theorem collectChildren_nested {form region listCall service parentARN : String}
    {next : Option String → Request σ (Page κ)} {identify : κ → Ident}
    {visit : String → κ → FormAcc → StateM (Scan σ) FormAcc}
    (hform : regionLimitedForms.lookup form = none)
    (hvisit : ∀ arn x a, Returns (visit arn x a) (Visited a arn)) {own a : FormAcc}
    {logs : List (String × List PageLog)} (h : Nested own a logs) :
    Returns (collectChildren env opts form region listCall service parentARN next identify visit a)
      fun r => Nested own r.1 (logs ++ [(parentARN, r.2)]) := by
  refine pages_ended.bind fun l hl => ?_
  obtain ⟨hlisted, hknown⟩ := FormAcc.listItems_listed h.counts identify l.items
  simp only [FormAcc.listErr_newAcc hform]
  obtain ⟨hsame, hlistErr, hoffered, hmark⟩ := FormAcc.childListing_spec
    (a.listItems identify l.items).1 l.err parentARN listCall
  refine (visits_counts hvisit (hlisted.counts.congr hsame)).bind fun b hb => Returns.pure ?_
  have hseen : b.seen = (a.listItems identify l.items).1.seen := hb.2.seen.trans hsame.seen
  refine ⟨hb.1, ?_, ?_, fun c hc id hid => ?_, fun hnone c hc => ?_⟩
  · rw [hb.2.listErr, hlistErr, hlisted.listErr, h.listErr]
  · rw [hb.2.notOffered, hoffered, hlisted.notOffered, h.notOffered]
  · rw [hseen]
    rcases mem_append.1 hc with hc | hc
    · exact hlisted.mono id (h.known c hc id hid)
    · rw [mem_singleton.1 hc] at hid
      obtain ⟨x, hx, hid⟩ := mem_log_ids.1 hid
      exact hknown x hx id hid
  · rw [hb.2.childListFailed] at hnone
    obtain ⟨hbefore, herr⟩ := hmark hnone
    rcases mem_append.1 hc with hc | hc
    · rw [hlisted.childListFailed] at hbefore
      exact h.ended hbefore c hc
    · rw [mem_singleton.1 hc]
      exact (hl herr).log identify

/-- A form whose parents were all listed. -/
lemma Nested.whollyRead {own a : FormAcc} {logs : List (String × List PageLog)}
    {pages : List PageLog} (h : Nested own a logs)
    (hended : own.listErr = none → own.notOffered = false → LogEnded pages)
    (hparents : ∀ id ∈ pages.flatMap PageLog.ids, id ∈ logs.map Prod.fst) :
    Collected.WhollyRead ⟨a.finish, ⟨pages, some logs⟩⟩ := by
  refine whollyRead_of_counts h.counts fun hcomplete => ⟨?_, ?_, ?_, fun id hid => ?_⟩
  · exact hended (h.listErr ▸ hcomplete.listErr) (h.notOffered ▸ hcomplete.notOffered)
  · rintro cs ⟨⟩ id hid
    obtain ⟨c, hc, rfl⟩ := mem_map.1 (hparents id hid)
    exact ⟨c.2, hc⟩
  · rintro cs ⟨⟩
    exact h.ended hcomplete.childListFailed
  · obtain ⟨c, hc, hid⟩ := List.mem_flatMap.1 hid
    rw [reads_finish]
    exact h.counts.count_eq_one hcomplete.readOK (h.known c hc id hid)

lemma mem_sortedUniqueStrings {l : List String} {x : String} :
    x ∈ sortedUniqueStrings l ↔ x ∈ l ∧ x ≠ "" := by
  simp [sortedUniqueStrings, mem_sortedUnique]

lemma named_id {x id : String} : (Ident.named x).id = some id ↔ x = id ∧ x ≠ "" := by
  by_cases h : x = ""
  · simp [Ident.id, h]
  · simp [Ident.id, h]

/-- The versions of the layers, layer by layer. -/
theorem collectLayers_wholly {region : String} {api : Option (LambdaAPI σ)} :
    Returns (collectLayers env opts region api) Collected.WhollyRead := by
  refine withClient_wholly fun api => pages_ended.bind fun l hl => ?_
  obtain ⟨hsame, -, hmark⟩ := FormAcc.listingEnded_spec
    (newAcc formLambdaLayerVersion region "lambda:ListLayers") l.err
  have hstart := Nested.start ((FormAcc.counts_newAcc formLambdaLayerVersion region
    "lambda:ListLayers").congr hsame)
  -- the layers that were listed, and those that remain, are all of them
  refine (Returns.foldlM (fun rest st =>
    Nested ((newAcc formLambdaLayerVersion region "lambda:ListLayers").listingEnded l.err)
      st.1 st.2 ∧ st.2.map Prod.fst ++ rest = sortedUniqueStrings l.items)
    ?_ (sortedUniqueStrings l.items) _ ⟨hstart, rfl⟩).bind fun st hst => Returns.pure ?_
  · intro layer rest st hst
    refine (collectChildren_nested (by decide) (fun _ _ _ => readOne_visited) hst.1).bind
      fun v hv => Returns.pure ⟨hv, ?_⟩
    rw [map_append, append_assoc]
    exact hst.2
  · refine hst.1.whollyRead (fun hlistErr hoffered => ?_) fun id hid => ?_
    · exact (hl (hmark hlistErr hoffered)).log _
    · obtain ⟨x, hx, hid⟩ := mem_log_ids.1 hid
      obtain ⟨rfl, hne⟩ := named_id.1 hid
      rw [← append_nil (st.2.map Prod.fst), hst.2]
      exact mem_sortedUniqueStrings.2 ⟨hx, hne⟩

/-- The state of the loop over the functions: those that remain, and what the others left. -/
structure LambdaLoop (fa va aa : FormAcc) (all rest : List String) (st : LambdaAccs) : Prop where
  functions : st.functions.Counts rest ∧ fa.SameListing st.functions
  versions : Nested va st.versions st.versionLogs
  aliases : Nested aa st.aliases st.aliasLogs
  versionParents : st.versionLogs.map Prod.fst ++ rest = all
  aliasParents : st.aliasLogs.map Prod.fst ++ rest = all

lemma LambdaLoop.step {region : String} {api : LambdaAPI σ} {fa va aa : FormAcc}
    {functionARN : String} {all rest : List String} {st : LambdaAccs}
    (h : LambdaLoop fa va aa all (functionARN :: rest) st) :
    Returns (collectFunction env opts region api st functionARN)
      (LambdaLoop fa va aa all rest) := by
  refine readOne_visited.bind fun b hb => ?_
  obtain ⟨hcounts, hsame⟩ := hb.counts h.functions.1
  refine (collectChildren_nested (by decide) (fun _ _ _ => readOne_visited) h.versions).bind
    fun v hv => ?_
  refine (collectChildren_nested (by decide) (fun _ _ _ => readOne_visited) h.aliases).bind
    fun al hal => Returns.pure ⟨⟨hcounts, h.functions.2.trans hsame⟩, hv, hal, ?_, ?_⟩
  · rw [map_append, append_assoc]
    exact h.versionParents
  · rw [map_append, append_assoc]
    exact h.aliasParents

/-- A form that shares a listing has no error only if the listing has none. -/
lemma shareListing_spec {fa sub : FormAcc} :
    sub.SameCounts (fa.shareListing sub) ∧
      ((fa.shareListing sub).listErr = none → (fa.shareListing sub).notOffered = false →
        fa.listErr = none ∧ fa.notOffered = false) := by
  rw [FormAcc.shareListing]
  split_ifs with h
  · exact ⟨⟨rfl, rfl, rfl, rfl, rfl⟩, fun hnone hoffered => ⟨hnone, hoffered⟩⟩
  · rw [Bool.or_eq_true, not_or, Bool.not_eq_true, Bool.not_eq_true] at h
    refine ⟨⟨rfl, rfl, rfl, rfl, rfl⟩, fun _ _ => ⟨?_, h.2⟩⟩
    exact Option.isNone_iff_eq_none.1 (Option.isSome_eq_false_iff.1 h.1)

/-- The functions that were listed, read with their versions and aliases. -/
lemma functions_wholly {region listCall : String} {api : LambdaAPI σ} {fa : FormAcc}
    {items : List (String × String)} {own : List PageLog} (hcounts : fa.Counts (items.map Prod.fst))
    (hended : fa.listErr = none → fa.notOffered = false → LogEnded own)
    (hids : ∀ id ∈ own.flatMap PageLog.ids, id ∈ fa.seen ∧ id ∈ items.map Prod.fst) :
    Returns (do
      let st ← items.foldlM (fun st f => collectFunction env opts region api st f.1)
        { functions := fa
          versions := fa.shareListing (newAcc formLambdaFunctionVersion region listCall)
          aliases := fa.shareListing (newAcc formLambdaAlias region listCall) }
      pure [⟨st.functions.finish, ⟨own, none⟩⟩, ⟨st.versions.finish, ⟨own, some st.versionLogs⟩⟩,
        ⟨st.aliases.finish, ⟨own, some st.aliasLogs⟩⟩])
      fun cs => ∀ c ∈ cs, Collected.WhollyRead c := by
  have hshared : ∀ form, Nested (fa.shareListing (newAcc form region listCall))
      (fa.shareListing (newAcc form region listCall)) [] := fun form =>
    Nested.start ((FormAcc.counts_newAcc form region listCall).congr shareListing_spec.1)
  have hsharedEnded : ∀ form, (fa.shareListing (newAcc form region listCall)).listErr = none →
      (fa.shareListing (newAcc form region listCall)).notOffered = false → LogEnded own := by
    intro form hlistErr hoffered
    obtain ⟨h, h'⟩ := shareListing_spec.2 hlistErr hoffered
    exact hended h h'
  refine (Returns.foldlM (fun rest st => LambdaLoop fa _ _ (items.map Prod.fst)
    (rest.map Prod.fst) st) (fun f rest st hst => hst.step) items _
    ⟨⟨hcounts, .refl fa⟩, hshared _, hshared _, rfl, rfl⟩).bind fun st hst => Returns.pure ?_
  have hversions := hst.versionParents
  have haliases := hst.aliasParents
  rw [map_nil, append_nil] at hversions haliases
  have hparents : ∀ id ∈ own.flatMap PageLog.ids, id ∈ items.map Prod.fst :=
    fun id hid => (hids id hid).2
  intro c hc
  simp only [mem_cons, not_mem_nil, or_false] at hc
  rcases hc with rfl | rfl | rfl
  · refine whollyRead_of_counts hst.functions.1 fun hcomplete => ⟨?_, ?_, ?_, fun id hid => ?_⟩
    · refine hended ?_ ?_
      · rw [← hst.functions.2.listErr, hcomplete.listErr]
      · rw [← hst.functions.2.notOffered, hcomplete.notOffered]
    · rintro cs ⟨⟩
    · rintro cs ⟨⟩
    · rw [reads_finish]
      refine hst.functions.1.count_eq_one hcomplete.readOK ?_
      rw [hst.functions.2.seen]
      exact (hids id hid).1
  · exact hst.versions.whollyRead (hsharedEnded _) (hversions ▸ hparents)
  · exact hst.aliases.whollyRead (hsharedEnded _) (haliases ▸ hparents)

/-- The functions with their versions and aliases. -/
theorem collectLambda_wholly {region : String} {api : Option (LambdaAPI σ)} :
    Returns (collectLambda env opts region api) fun cs => ∀ c ∈ cs, c.WhollyRead := by
  cases api with
  | none =>
      refine Returns.pure fun c hc => ?_
      obtain ⟨form, -, rfl⟩ := mem_map.1 hc
      exact withoutClient_wholly _ _ _
  | some api =>
      refine pages_ended.bind fun l hl => ?_
      obtain ⟨hlisted, hknown⟩ := FormAcc.listItems_listed
        (FormAcc.counts_newAcc formLambdaFunction region "lambda:ListFunctions") .named l.items
      have hpending := FormAcc.listItems_pending (fun x => ⟨x, rfl⟩)
        (newAcc formLambdaFunction region "lambda:ListFunctions") l.items
      obtain ⟨hsame, -, hmark⟩ := FormAcc.listingEnded_spec
        ((newAcc formLambdaFunction region "lambda:ListFunctions").listItems .named l.items).1 l.err
      refine functions_wholly (hlisted.counts.congr hsame)
        (fun hlistErr hoffered => (hl (hmark hlistErr hoffered)).log _) fun id hid => ?_
      obtain ⟨x, hx, hid⟩ := mem_log_ids.1 hid
      have hseen := hknown x hx id hid
      refine ⟨by rwa [hsame.seen], (hpending id hseen).resolve_left not_mem_nil⟩

/-! ## All forms -/

lemma visitBucket_visited {home arn : String} {b : Bucket} {a : FormAcc} :
    Returns (visitBucket env opts home arn b a) (Visited a arn) := by
  refine Returns.trivial.bind fun r _ => ?_
  cases r with
  | error e => exact Returns.trivial.bind fun t _ => Returns.pure ⟨_, Or.inr ⟨_, t, rfl⟩⟩
  | ok cl =>
      cases hs3 : cl.s3 with
      | none =>
          simp only [hs3]
          exact Returns.trivial.bind fun t _ => Returns.pure ⟨_, Or.inr ⟨_, t, rfl⟩⟩
      | some api =>
          simp only [hs3]
          exact readOne_visited

variable {inp : CollectInput} {region : String}

lemma collectS3Buckets_wholly : Returns (collectS3Buckets env opts inp) Collected.WhollyRead := by
  refine Returns.trivial.bind fun r _ => ?_
  cases r with
  | error e => exact Returns.pure (withoutSession_wholly _ _ _ e)
  | ok cl =>
      exact withClient_wholly fun _ => collectResources_wholly fun _ _ _ => visitBucket_visited

lemma collectMRAPs_wholly : Returns (collectMRAPs env opts inp) Collected.WhollyRead := by
  refine Returns.trivial.bind fun r _ => ?_
  cases r with
  | error e => exact Returns.pure (withoutSession_wholly _ _ _ e)
  | ok cl => exact withClient_wholly fun _ => collectResources_wholly fun _ _ _ => readOne_visited

lemma collectRegion_wholly {cl : Clients σ} :
    Returns (collectRegion env opts inp region cl) fun cs => ∀ c ∈ cs, c.WhollyRead := by
  refine (withClient_wholly fun _ => collectResources_wholly fun _ _ _ => readOne_visited).bind
    fun directoryBuckets h₁ => ?_
  refine (withClient_wholly fun _ => collectResources_wholly fun _ _ _ => readOne_visited).bind
    fun accessPoints h₂ => ?_
  refine (withClient_wholly fun _ => collectResources_wholly fun _ _ _ => readOne_visited).bind
    fun objectLambda h₃ => ?_
  refine (withClient_wholly fun _ => collectResources_wholly fun _ _ _ => readOne_visited).bind
    fun keys h₄ => ?_
  refine (withClient_wholly fun _ => collectResources_wholly fun _ _ _ => readOne_visited).bind
    fun queues h₅ => ?_
  refine (withClient_wholly fun _ => collectResources_wholly fun _ _ _ => readOne_visited).bind
    fun topics h₆ => ?_
  refine collectLambda_wholly.bind fun functions hfunctions => ?_
  refine collectLayers_wholly.bind fun layers hlayers => ?_
  refine (withClient_wholly fun _ => collectResources_wholly fun _ _ _ => readOne_visited).bind
    fun secrets hsecrets => Returns.pure fun c hc => ?_
  simp only [mem_append, mem_cons, not_mem_nil, or_false] at hc
  rcases hc with ((rfl | rfl | rfl | rfl | rfl | rfl) | hc) | rfl | rfl
  · exact h₁
  · exact h₂
  · exact h₃
  · exact h₄
  · exact h₅
  · exact h₆
  · exact hfunctions c hc
  · exact hlayers
  · exact hsecrets

/-- Rows that are not complete and count nothing. -/
lemma regionalRows_wholly {row : String → FormCoverage}
    (hrow : ∀ form, (row form).state ≠ .complete ∧ (row form).readOK = 0 ∧ (row form).readFailed = 0) :
    ∀ c ∈ regionalRows row, c.WhollyRead := by
  intro c hc
  obtain ⟨form, -, rfl⟩ := mem_map.1 hc
  obtain ⟨hstate, hok, hfailed⟩ := hrow form
  refine ⟨?_, fun h => absurd h hstate⟩
  simp only [hok, hfailed]
  exact Nat.zero_le _

lemma collectSelected_wholly :
    Returns (collectSelected env opts inp region) fun cs => ∀ c ∈ cs, c.WhollyRead := by
  refine Returns.trivial.bind fun r _ => ?_
  cases r with
  | error e => exact Returns.pure (regionalRows_wholly fun form => ⟨by simp, rfl, rfl⟩)
  | ok cl => exact collectRegion_wholly

end

/-- Whatever AWS, the clock and the context answer, every form that is complete was wholly read, and
no form counts more reads than resources. -/
theorem collect_wholly_read {σ : Type} (env : Environment σ) (opts : CollectorOptions)
    (inp : CollectInput) (s : Scan σ) : ∀ c ∈ (collect env opts inp s).1, c.WhollyRead := by
  refine (?_ : Returns (collect env opts inp) fun cs => ∀ c ∈ cs, c.WhollyRead) s
  refine collectS3Buckets_wholly.bind fun buckets hbuckets => ?_
  refine collectMRAPs_wholly.bind fun mraps hmraps => ?_
  refine (Returns.mapM _ fun region _ => collectSelected_wholly).bind fun selected hselected =>
    Returns.pure fun c hc => ?_
  rw [mem_sortOn] at hc
  simp only [mem_cons, mem_append, mem_flatten, List.mem_flatMap] at hc
  rcases hc with rfl | rfl | ⟨cs, hcs, hc⟩ | ⟨region, -, hc⟩
  · exact hbuckets
  · exact hmraps
  · exact hselected cs hcs c hc
  · exact regionalRows_wholly (fun form => ⟨by simp [notCollected], rfl, rfl⟩) c hc

/-! ## Example -/

/-- A world in which nothing happens, and no client can be had. -/
def stillWorld : Environment Unit where
  now := pure 0
  ctxDone := pure false
  sleep _ := pure false
  clients _ := fun s => (.error {}, s)

/-- Two pages of keys. -/
def twoKeys : KMSAPI Unit where
  listKeys
    | none, s => (.ok ⟨["arn:aws:kms:us-east-1:123456789012:key/a"], true, "next", by decide⟩, s)
    | some _, s => (.ok ⟨["arn:aws:kms:us-east-1:123456789012:key/b"], false, "", by decide⟩, s)
  getKeyPolicy _ := fun s => (.ok "\x7b\x7d", s)

example : ((collectKMSKeys stillWorld (newCollectorOptions {}) "us-east-1" (some twoKeys)
    ⟨(), ∅, []⟩).1.coverage.reads.map PolicyRead.arn) =
    ["arn:aws:kms:us-east-1:123456789012:key/a", "arn:aws:kms:us-east-1:123456789012:key/b"] := by
  decide +kernel

/-- A world with these keys and no other service. -/
def keyWorld : Environment Unit :=
  { stillWorld with clients := fun _ s => (.ok { kms := some twoKeys }, s) }

/-- Two keys on two pages, both read. -/
theorem collect_wholly_read_keys :
    ∃ c ∈ (collect keyWorld (newCollectorOptions {}) ⟨"123456789012", "aws", ["us-east-1"], []⟩
        ⟨(), ∅, []⟩).1, c.coverage.state = .complete ∧ c.coverage.reads.length = 2 ∧ c.WhollyRead := by
  have hany : (collect keyWorld (newCollectorOptions {})
      ⟨"123456789012", "aws", ["us-east-1"], []⟩ ⟨(), ∅, []⟩).1.any
        (fun c => decide (c.coverage.state = .complete) && c.coverage.reads.length == 2) = true := by
    decide +kernel
  obtain ⟨c, hc, hkeys⟩ := any_eq_true.1 hany
  rw [Bool.and_eq_true, decide_eq_true_eq, beq_iff_eq] at hkeys
  exact ⟨c, hc, hkeys.1, hkeys.2, collect_wholly_read _ _ _ _ c hc⟩

end AuthSec
