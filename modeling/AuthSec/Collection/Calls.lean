import AuthSec.Collection.Clients
import AuthSec.Lib.Results

/-!
# Calls, pages and reads

The discipline of every call to AWS: the budget, the pace of a service in a region, and the bounded
retry of a throttled call.

* `pages_ended`: a listing ends on a page without a next token, or with an error;
* `readOne_cases`: what reading a policy does to the counts.
-/

namespace AuthSec

/-- What the options of a collector are set to; zero stands for the default. -/
structure CollectorSettings where
  maxThrottleRetries : ℤ := 0
  backoff : ℤ := 0
  minCallInterval : ℤ := 0
  maxPages : ℤ := 0
  deadline : Option Time := none

/-- The limits of a collector. -/
structure CollectorOptions where
  maxThrottleRetries : ℕ
  backoff : ℤ
  minCallInterval : ℤ
  maxPages : ℕ
  deadline : Option Time

/-- `NewResourcePolicyCollector`. -/
def newCollectorOptions (s : CollectorSettings) : CollectorOptions where
  maxThrottleRetries := if s.maxThrottleRetries = 0 then 2 else s.maxThrottleRetries.toNat
  backoff := if s.backoff = 0 then second else s.backoff
  minCallInterval :=
    if s.minCallInterval = 0 then 50000000 else if s.minCallInterval < 0 then 0 else s.minCallInterval
  maxPages := if s.maxPages ≤ 0 then 10000 else s.maxPages.toNat
  deadline := s.deadline

/-- The world, when a service was last called in a region, and the clients that were asked for. -/
structure Scan (σ : Type) where
  world : σ
  last : GoMap Time := ∅
  clients : List (String × Except CallError (Clients σ)) := []

section

variable {σ α ι : Type}

/-- A step of the world in a scan. -/
def inWorld (m : StateM σ α) : StateM (Scan σ) α :=
  fun s => ((m s.world).1, { s with world := (m s.world).2 })

/-! ## Calls -/

section

variable (env : Environment σ) (opts : CollectorOptions)

def pastDeadline : StateM (Scan σ) Bool :=
  match opts.deadline with
  | none => pure false
  | some deadline => do
    let t ← inWorld env.now
    pure !decide (t < deadline)

/-- Waits until the pace of a service allows its next call; true if the wait was cut short. -/
def pace (key : String) : StateM (Scan σ) Bool :=
  if opts.minCallInterval ≤ 0 then pure false
  else do
    let s ← get
    let cut ← match s.last.get? key with
      | none => pure false
      | some last => do
        let t ← inWorld env.now
        let wait := opts.minCallInterval - timeSub t last
        if decide (0 < wait) then inWorld (env.sleep wait) else pure false
    if cut then pure true
    else do
      let t ← inWorld env.now
      modify fun s => { s with last := s.last.insert key t }
      pure false

/-- One attempt of a call, if the budget allows it. -/
def attempt (key : String) (fn : Request σ α) :
    StateM (Scan σ) (Except CallError α) := do
  let done ← inWorld env.ctxDone
  if done then pure (.error errCollectionBudget)
  else do
    let past ← pastDeadline env opts
    if past then pure (.error errCollectionBudget)
    else do
      let cut ← pace env opts key
      if cut then pure (.error errCollectionBudget) else inWorld fn

/-- Attempts until one is not throttled, with a number of retries that are left. -/
def attempts (key : String) (fn : Request σ α) :
    ℕ → ℕ → StateM (Scan σ) (Except CallError α)
  | 0, _ => attempt env opts key fn
  | retries + 1, n => do
    let r ← attempt env opts key fn
    match r with
    | .ok a => pure (.ok a)
    | .error e =>
      if !e.isThrottle then pure (.error e)
      else do
        let cut ← inWorld (env.sleep (opts.backoff * 2 ^ n))
        if cut then pure (.error errCollectionBudget) else attempts key fn retries (n + 1)

/-- `call`. -/
def call (service region : String) (fn : Request σ α) :
    StateM (Scan σ) (Except CallError α) :=
  attempts env opts (service ++ "/" ++ region) fn opts.maxThrottleRetries 0

end

/-! ## Pages -/

/-- A page as the loop sees it, and whether AWS says that there are more. -/
structure Page (ι : Type) where
  items : List ι
  token : String
  more : Bool
  marked : more = true → token ≠ ""

def TokenPage.page (p : TokenPage ι) : Page ι where
  items := p.items
  token := p.nextToken
  more := p.nextToken != ""
  marked h := by simpa using h

def KeyPage.page (p : KeyPage) : Page String where
  items := p.keys
  token := if p.truncated then p.nextMarker else ""
  more := p.truncated
  marked h := by
    rw [if_pos h]
    exact p.marked h

/-- The pages of a listing, and the error that it ended with. -/
structure Listing (ι : Type) where
  pages : List (Page ι)
  err : Option CallError

def Listing.items (l : Listing ι) : List ι :=
  l.pages.flatMap Page.items

/-- The listing ended on a page that AWS says is the last one. -/
def Listing.Ended (l : Listing ι) : Prop :=
  ∃ p, l.pages.getLast? = some p ∧ p.more = false

/-- The loop of `pages`, with the number of pages that are left and the tokens that were used. -/
def pagesLoop (fetch : Option String → StateM (Scan σ) (Except CallError (Page ι))) :
    ℕ → Option String → List String → StateM (Scan σ) (Listing ι)
  | 0, _, _ => pure ⟨[], some errCollectionBudget⟩
  | left + 1, token, seenTokens => do
    let r ← fetch token
    match r with
    | .error e => pure ⟨[], some e⟩
    | .ok page =>
      if page.token = "" then pure ⟨[page], none⟩
      else if seenTokens.contains page.token then pure ⟨[page], some errCollectionBudget⟩
      else do
        let rest ← pagesLoop fetch left (some page.token) (page.token :: seenTokens)
        pure ⟨page :: rest.pages, rest.err⟩

/-- `pages`. -/
def pages (env : Environment σ) (opts : CollectorOptions) (service region : String)
    (next : Option String → Request σ (Page ι)) : StateM (Scan σ) (Listing ι) :=
  pagesLoop (fun token => call env opts service region (next token)) opts.maxPages none []

lemma pagesLoop_ended {fetch : Option String → StateM (Scan σ) (Except CallError (Page ι))}
    (left : ℕ) (token : Option String) (seenTokens : List String) :
    Returns (pagesLoop fetch left token seenTokens) fun l => l.err = none → l.Ended := by
  induction left generalizing token seenTokens with
  | zero =>
      refine Returns.pure ?_
      rintro ⟨⟩
  | succ left ih =>
      refine Returns.trivial.bind fun r _ => ?_
      cases r with
      | error e =>
          refine Returns.pure ?_
          rintro ⟨⟩
      | ok page =>
          show Returns (if page.token = "" then _ else _) _
          split_ifs with htoken hseen
          · refine Returns.pure fun _ => ⟨page, rfl, ?_⟩
            by_contra hmore
            exact page.marked (by simpa using hmore) htoken
          · refine Returns.pure ?_
            rintro ⟨⟩
          · refine (ih (some page.token) (page.token :: seenTokens)).bind fun rest hrest =>
              Returns.pure fun herr => ?_
            obtain ⟨p, hp, hmore⟩ := hrest herr
            exact ⟨p, by rw [List.getLast?_cons, hp]; rfl, hmore⟩

/-- A listing ends on the last page, or with an error. -/
theorem pages_ended {env : Environment σ} {opts : CollectorOptions} {service region : String}
    {next : Option String → Request σ (Page ι)} :
    Returns (pages env opts service region next) fun l => l.err = none → l.Ended :=
  pagesLoop_ended _ _ _

/-! ## Reads -/

/-- `readOne`. -/
def readOne (env : Environment σ) (opts : CollectorOptions) (service region arn readCall : String)
    (fn : Request σ (Bool × String)) (a : FormAcc) : StateM (Scan σ) FormAcc := do
  let r ← call env opts service region fn
  match r with
  | .error e =>
    if e.budget then pure (a.noteFirst readCall e)
    else do
      let t ← inWorld env.now
      pure (a.read arn readCall (.error e) t)
  | .ok result => do
    let t ← inWorld env.now
    pure (a.read arn readCall (.ok result) t)

/-- A read is recorded, or its budget is over and only noted. -/
theorem readOne_cases {env : Environment σ} {opts : CollectorOptions}
    {service region arn readCall : String} {fn : Request σ (Bool × String)} {a : FormAcc} :
    Returns (readOne env opts service region arn readCall fn a) fun b =>
      (∃ e, b = a.noteFirst readCall e) ∨ ∃ r t, b = a.read arn readCall r t := by
  refine Returns.trivial.bind fun r _ => ?_
  cases r with
  | error e =>
      refine Returns.ite (fun _ => Returns.pure (Or.inl ⟨e, rfl⟩)) fun _ => ?_
      exact Returns.trivial.bind fun t _ => Returns.pure (Or.inr ⟨_, t, rfl⟩)
  | ok result => exact Returns.trivial.bind fun t _ => Returns.pure (Or.inr ⟨_, t, rfl⟩)

end

end AuthSec
