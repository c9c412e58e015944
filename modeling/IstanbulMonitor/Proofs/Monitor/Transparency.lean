import IstanbulMonitor.Proofs.Monitor.Atomicity
import IstanbulMonitor.Proofs.Monitor.Chain
import IstanbulMonitor.Proofs.Monitor.Lookups

/-!
# The cache cannot be seen

A monitor is set beside the same monitor without room for a single header, which asks the node for
every one. `Monitor.Shadows` relates the two as long as the node serves one chain (`ServesChain`):
they differ in the cache and in the counts of the look-ups only. `Inquiry.Mirrors` says of an
inquiry that it gives both the same result and keeps them related; there is one rule for each way
inquiries are put together, and a look-up does so because the cache holds blocks that the node has
(`Answers.Stocks`). So over any run the two give the same results (`Monitor.transparent_run`).
-/

set_option autoImplicit false

namespace IstanbulMonitor

/-! ## Runs with their results -/

namespace MonitorRequest

/-- What a request gives if it succeeds; a restart may panic instead, and then gives nothing. -/
abbrev Result : MonitorRequest → Type
  | .call (.update _) => Seals
  | .call (.report _ _) => BlockReport
  | .call (.restart _) => Option Unit
  | .call (.header _) => Header
  | .call .headNumber => UInt64
  | .call (.signers _) => Seals
  | .call (.signerData _) => SignerData
  | .call .nodeInfo => NodeInfo
  | .call .peers => List PeerInfo
  | .nextProposer _ => Address

/-- The inquiry behind a request, with its result. -/
def perform : (r : MonitorRequest) → Inquiry MonitorError r.Result
  | .call (.update h) => Monitor.countHeader h
  | .call (.report h previous) => Monitor.reportHeader h previous
  | .call (.restart window) => Monitor.restart window
  | .call (.header block) => Monitor.header block
  | .call .headNumber => Monitor.headNumber
  | .call (.signers h) => Monitor.signers h
  | .call (.signerData block) => Monitor.signerData block
  | .call .nodeInfo => Monitor.nodeInfo
  | .call .peers => Monitor.peers
  | .nextProposer a => Monitor.nextProposer a

end MonitorRequest

/-- A request to a monitor, and the node as it is while the request is served. -/
structure Visit where
  node : Answers
  request : MonitorRequest

/-- What a visit ends with, and the monitor and the log of the node afterwards. -/
def Visit.run (v : Visit) (m : Monitor) (log : List Fetch) :
    Except MonitorError v.request.Result × Monitor × List Fetch :=
  v.request.perform.runWith v.node.gateway m log

/-- The node has a block of a number. -/
def Answers.Has (a : Answers) (n : UInt64) : Prop := ∃ h, a (.header (.number n)) = .ok (some h)

/-- The node has a block for everything that a cache holds. -/
def Answers.Stocks (a : Answers) (c : HeaderCache) : Prop := ∀ entry ∈ c.entries, a.Has entry.1

theorem Answers.Stocks.put {a : Answers} {c : HeaderCache} (stocks : a.Stocks c) {h : Header}
    (has : a.Has h.number) : a.Stocks (c.put h.number h) := by
  intro entry mem
  rcases List.mem_cons.mp (List.mem_of_mem_take mem) with rfl | among
  · exact has
  · exact stocks entry (List.mem_filter.mp among).1

/-- The node serves the blocks of a chain, and its head is a block that it has. -/
structure Answers.Serves (a : Answers) (block : UInt64 → Header) : Prop where
  honest : a.gateway.Honest block
  head : ∀ h, a (.header .latest) = .ok (some h) → a.Has h.number

/-- The visits are to a node with immutable blocks: it serves one chain, and a block that it had
once is there at every later visit, when the head may be another one. -/
structure ServesChain (block : UInt64 → Header) (visits : List Visit) : Prop where
  serves : ∀ v ∈ visits, v.node.Serves block
  keeps : visits.Pairwise fun earlier later => ∀ n, earlier.node.Has n → later.node.Has n

/-- What is seen of a request: its result, and the statistics afterwards. -/
abbrev Sight := (r : MonitorRequest) × (Except MonitorError r.Result × Statistics)

namespace Monitor

/-- The monitor and the log after a list of visits. -/
def afterVisits : List Visit → Monitor → List Fetch → Monitor × List Fetch
  | [], m, log => (m, log)
  | v :: visits, m, log => afterVisits visits (v.run m log).2.1 (v.run m log).2.2

/-- What is seen of a list of visits. -/
def sights : List Visit → Monitor → List Fetch → List Sight
  | [], _, _ => []
  | v :: visits, m, log =>
    ⟨v.request, (v.run m log).1, (v.run m log).2.1.statistics⟩ ::
      sights visits (v.run m log).2.1 (v.run m log).2.2

/-! ## A monitor beside one without a cache -/

/-- The monitor without room for a header: it asks the node for every one. -/
def uncached (m : Monitor) : Monitor := { m with cache := ⟨0, []⟩ }

/-- The monitor with a cache and counts of look-ups of its own. -/
def equipped (m : Monitor) (cache : HeaderCache) (lookups : LabelCounts String) : Monitor :=
  { m with
    cache
    journal := { m.journal with metrics := { m.journal.metrics with lookups } } }

/-- A monitor and the same one without a cache, each with the log of its node: they differ in the
cache and in the counts of the look-ups only, the cache holds blocks of the chain, and the counts
tell the look-ups, which are the fetches of the monitor without a cache, from the fetches. -/
structure Shadows (block : UInt64 → Header) (capacity : Nat) (m : Monitor) (log : List Fetch)
    (u : Monitor) (asked : List Fetch) : Prop where
  same : m = u.equipped m.cache m.lookups
  bare : u.cache = ⟨0, []⟩
  capacity_eq : m.cache.capacity = capacity
  caches : m.Caches block
  tallied : asked.length < 2 ^ 53 → m.lookups.Tallied log.length asked.length

/-- An operation to which the cache and the counts of the look-ups make no difference, and which
leaves them as they are. -/
def Unaware {ε α : Type} (f : Monitor → Except ε α × Monitor) : Prop :=
  ∀ m cache lookups,
    f (m.equipped cache lookups) = ((f m).1, (f m).2.equipped cache lookups) ∧
      (f m).2.cache = m.cache

end Monitor

namespace Inquiry

open Monitor (Shadows Unaware)

variable {ε α β : Type}

/-- An inquiry that gives the same result with a cache and without one, and keeps the two monitors
related. -/
def Mirrors (a : Answers) (block : UInt64 → Header) (capacity : Nat) (i : Inquiry ε α) : Prop :=
  ∀ m log u asked, Shadows block capacity m log u asked → a.Stocks m.cache →
    (i.runWith a.gateway m log).1 = (i.runWith a.gateway u asked).1 ∧
      Shadows block capacity (i.runWith a.gateway m log).2.1 (i.runWith a.gateway m log).2.2
        (i.runWith a.gateway u asked).2.1 (i.runWith a.gateway u asked).2.2 ∧
      a.Stocks (i.runWith a.gateway m log).2.1.cache

namespace Mirrors

variable {a : Answers} {block : UInt64 → Header} {capacity : Nat} {i : Inquiry ε α}

theorem pure (result : α) : Mirrors a block capacity (pure result : Inquiry ε α) :=
  fun _ _ _ _ h stocks => ⟨rfl, h, stocks⟩

theorem fail (e : ε) : Mirrors a block capacity (fail e : Inquiry ε α) :=
  fun _ _ _ _ h stocks => ⟨rfl, h, stocks⟩

theorem ofOperation {f : Monitor → Except ε α × Monitor} (unaware : Unaware f) :
    Mirrors a block capacity (ofOperation f) := by
  intro m log u asked h stocks
  obtain ⟨hf, hcache⟩ := unaware u m.cache m.lookups
  rw [runWith_ofOperation, runWith_ofOperation, h.same, hf]
  refine ⟨rfl, ?_, stocks⟩
  exact
    { same := rfl
      bare := hcache.trans h.bare
      capacity_eq := h.capacity_eq
      caches := h.caches
      tallied := h.tallied }

theorem change {f : Monitor → Monitor}
    (unaware : Unaware fun m => ((.ok (), f m) : Except ε Unit × Monitor)) :
    Mirrors a block capacity (change f : Inquiry ε Unit) :=
  ofOperation unaware

theorem bind {next : α → Inquiry ε β} (first : Mirrors a block capacity i)
    (rest : ∀ result, Mirrors a block capacity (next result)) :
    Mirrors a block capacity (i >>= next) := by
  intro m log u asked h stocks
  rw [runWith_bind, runWith_bind]
  have hfirst := first m log u asked h stocks
  rcases hu : i.runWith a.gateway u asked with ⟨result', u', asked'⟩
  rcases hm : i.runWith a.gateway m log with ⟨result, m', log'⟩
  rw [hu, hm] at hfirst
  obtain ⟨rfl, hrest, stocks'⟩ := hfirst
  cases result with
  | error e => exact ⟨rfl, hrest, stocks'⟩
  | ok result => exact rest result m' log' u' asked' hrest stocks'

/-- What follows may depend on the monitor as it stands, but not on its cache. -/
theorem current_bind {next : Monitor → Inquiry ε β}
    (same : ∀ m cache lookups, next (m.equipped cache lookups) = next m)
    (rest : ∀ m, Mirrors a block capacity (next m)) :
    Mirrors a block capacity (current >>= next) := by
  intro m log u asked h stocks
  have hm : (current >>= next).runWith a.gateway m log = (next u).runWith a.gateway m log := by
    show (next m).runWith a.gateway m log = _
    rw [← same u m.cache m.lookups, ← h.same]
  rw [hm]
  exact rest u m log u asked h stocks

end Mirrors

end Inquiry

namespace Monitor

open Inquiry (Mirrors)

/-! ## Operations that do not look at the cache -/

variable (m : Monitor) (cache : HeaderCache) (lookups : LabelCounts String)

theorem extract_equipped (h : Header) :
    (m.equipped cache lookups).extract h =
      ((m.extract h).1, (m.extract h).2.equipped cache lookups) := by
  have hrecover : (m.equipped cache lookups).recover = m.recover := rfl
  unfold extract
  rw [hrecover]
  cases Proposal.ofHeader m.recover h with
  | error e => rfl
  | ok p =>
    -- the warning about the hash comes before the committed seals are read
    cases disputed : p.isDisputedBy h with
    | true =>
      simp only [disputed, if_true, recover_warn, hrecover]
      cases p.seals m.recover <;> rfl
    | false =>
      simp only [disputed, Bool.false_eq_true, if_false, hrecover]
      cases p.seals m.recover <;> rfl

theorem record_equipped (number : UInt64) (seals : Seals) :
    (m.equipped cache lookups).record number seals =
      (m.record number seals).equipped cache lookups := by
  have hstatistics : (m.equipped cache lookups).statistics = m.statistics := rfl
  unfold record
  rw [hstatistics]
  split <;> rfl

theorem cache_count (h : Header) : (m.count h).2.cache = m.cache := by
  obtain ⟨e, journal, -, hcount⟩ | ⟨seals, journal, -, hcount⟩ := count_cases m h
  · rw [hcount]
  · rw [hcount]

theorem count_equipped (h : Header) :
    (m.equipped cache lookups).count h =
      ((m.count h).1, (m.count h).2.equipped cache lookups) := by
  unfold count
  rw [extract_equipped]
  rcases m.extract h with ⟨result, m'⟩
  cases result with
  | error e => rfl
  | ok seals => exact congrArg (Prod.mk _) (record_equipped m' cache lookups h.number seals)

theorem report_equipped (h : Header) (previous : UInt64) :
    (m.equipped cache lookups).report h previous =
      ((m.report h previous).1, (m.report h previous).2.equipped cache lookups) := by
  unfold report
  rw [count_equipped]
  rcases m.count h with ⟨result, m'⟩
  cases result <;> rfl

theorem unaware_extract (h : Header) : Unaware (·.extract h) := by
  intro m cache lookups
  obtain ⟨journal, hextract⟩ := exists_journal_extract m h
  exact ⟨m.extract_equipped cache lookups h, by rw [hextract]⟩

theorem unaware_count (h : Header) : Unaware (·.count h) := fun m cache lookups =>
  ⟨m.count_equipped cache lookups h, m.cache_count h⟩

theorem unaware_commit {ε : Type} (fresh : Statistics) (first head : UInt64) :
    Unaware fun m => ((.ok (), m.commit fresh first head) : Except ε Unit × Monitor) := by
  intro m cache lookups
  unfold commit
  cases successor? head <;> exact ⟨rfl, rfl⟩

theorem unaware_report (h : Header) (previous : UInt64) : Unaware (·.report h previous) :=
  fun m cache lookups =>
    ⟨m.report_equipped cache lookups h previous, by rw [report_snd, cache_count]⟩

/-! ## Looking headers up -/

section Lookups

variable {a : Answers} {block : UInt64 → Header} {capacity : Nat} {m u : Monitor}
  {log asked : List Fetch}

theorem put_bare {c : HeaderCache} (bare : c = ⟨0, []⟩) (n : UInt64) (h : Header) :
    c.put n h = ⟨0, []⟩ := by
  rw [bare]
  rfl

/-- Two related monitors stay related when both look a header up. -/
theorem Shadows.lookedUp (h : Shadows block capacity m log u asked) (label label' : String)
    {cache cache' : HeaderCache} {log' asked' : List Fetch} (bare : cache' = ⟨0, []⟩)
    (caches : ∀ entry ∈ cache.entries, entry.2 = block entry.1)
    (room : cache.capacity = m.cache.capacity)
    (tallied : asked'.length < 2 ^ 53 →
      (m.lookups.add label).Tallied log'.length asked'.length) :
    Shadows block capacity { m.measure (·.countLookup label) with cache } log'
      { u.measure (·.countLookup label') with cache := cache' } asked' where
  same := congrArg (fun m => { m.measure (·.countLookup label) with cache }) h.same
  bare := bare
  capacity_eq := room.trans h.capacity_eq
  caches := caches
  tallied := tallied

/-- Two related monitors stay related when both ask the node for a header. Whatever comes in is the
answer to both, and it goes into the cache of the one that has room. -/
theorem Shadows.fetched (h : Shadows block capacity m log u asked) (stocks : a.Stocks m.cache)
    (numbered : ∀ n, (block n).number = n) {b : BlockNumber}
    (known : ∀ h, a (.header b) = .ok (some h) → h = block h.number ∧ a.Has h.number)
    {label : String} (label' : String)
    (tallied : ∀ fetches lookups, m.lookups.Tallied fetches lookups → lookups + 1 < 2 ^ 53 →
      (m.lookups.add label).Tallied (fetches + 1) (lookups + 1)) :
    let after := (fetch b).runWith a.gateway (m.measure (·.countLookup label)) log
    let after' := (fetch b).runWith a.gateway (u.measure (·.countLookup label')) asked
    after.1 = after'.1 ∧ Shadows block capacity after.2.1 after.2.2 after'.2.1 after'.2.2 ∧
      a.Stocks after.2.1.cache := by
  dsimp only
  rw [fetch_run, fetch_run]
  have grown : ∀ f : Fetch, (asked ++ [f]).length < 2 ^ 53 →
      (m.lookups.add label).Tallied (log ++ [f]).length (asked ++ [f]).length := by
    intro f
    rw [List.length_append, List.length_append]
    exact fun small => tallied _ _ (h.tallied (Nat.lt_of_succ_lt small)) small
  generalize a (.header b) = answer at known
  match answer with
  | .error e => exact ⟨rfl, h.lookedUp label label' h.bare h.caches rfl (grown _), stocks⟩
  | .ok none => exact ⟨rfl, h.lookedUp label label' h.bare h.caches rfl (grown _), stocks⟩
  | .ok (some head) =>
    obtain ⟨hhead, has⟩ := known head rfl
    have related := h.lookedUp label label' (put_bare h.bare head.number head)
      (h.caches.put hhead numbered) rfl (grown (b, .ok (some head)))
    exact ⟨rfl, related, stocks.put has⟩

/-- What the cache of one monitor holds is what the node answers to the other. -/
theorem Shadows.held (h : Shadows block capacity m log u asked) (stocks : a.Stocks m.cache)
    (honest : a.gateway.Honest block) {n : UInt64} {kept : Header}
    (mem : (n, kept) ∈ m.cache.entries) (label' : String) :
    let after :=
      { m with cache := { m.cache with entries := (n, kept) :: m.cache.others n } }.measure
        (·.countLookup "hit")
    let after' := (fetch (.number n)).runWith a.gateway (u.measure (·.countLookup label')) asked
    .ok kept = after'.1 ∧ Shadows block capacity after log after'.2.1 after'.2.2 ∧
      a.Stocks after.cache := by
  obtain ⟨found, answer⟩ := stocks _ mem
  have known : found = block n := honest.byNumber n asked found answer
  have held : ∀ entry ∈ (n, kept) :: m.cache.others n, entry ∈ m.cache.entries :=
    List.forall_mem_cons.mpr ⟨mem, fun entry among => (List.mem_filter.mp among).1⟩
  dsimp only
  rw [fetch_run, answer, known]
  refine ⟨congrArg Except.ok (h.caches _ mem), h.lookedUp "hit" label' ?_ ?_ rfl ?_, ?_⟩
  · exact put_bare h.bare _ _
  · exact fun entry among => h.caches entry (held entry among)
  · rw [List.length_append]
    exact fun small => (h.tallied (Nat.lt_of_succ_lt small)).hit small
  · exact fun entry among => stocks entry (held entry among)

/-- A monitor without a cache gets its headers from the node. -/
theorem header_bare (bare : u.cache = ⟨0, []⟩) (b : BlockNumber) (earlier : List Fetch) :
    ∃ label, (header b).runWith a.gateway u earlier =
      (fetch b).runWith a.gateway (u.measure (·.countLookup label)) earlier := by
  cases b with
  | latest => exact ⟨"bypass", header_latest_run ..⟩
  | number n =>
    have absent : u.cache.get n = (none, u.cache) := by
      rw [bare]
      rfl
    refine ⟨"miss", ?_⟩
    rw [header_number_run, lookUp_of_get u n absent]

/-- A look-up gives both monitors the block of the chain: one may have it in its cache, the other
gets it from the node. -/
theorem mirrors_header (serves : a.Serves block) (b : BlockNumber) :
    Mirrors a block capacity (header b) := by
  intro m log u asked h stocks
  have honest := serves.honest
  obtain ⟨label', hu⟩ := header_bare (a := a) h.bare b asked
  rw [hu]
  cases b with
  | latest =>
    rw [header_latest_run]
    exact h.fetched stocks honest.numbered
      (fun head answer => ⟨honest.latest asked head answer, serves.head head answer⟩) label'
      fun _ _ tallied => tallied.bypass
  | number n =>
    rw [header_number_run]
    rcases m.cache.get_cases n with ⟨-, absent⟩ | ⟨kept, mem, hget⟩
    · rw [lookUp_of_get m n absent]
      refine h.fetched stocks honest.numbered (fun found answer => ?_) label'
        fun _ _ tallied => tallied.miss
      have known : found = block n := honest.byNumber n asked found answer
      have number : found.number = n := known ▸ honest.numbered n
      exact ⟨number.symm ▸ known, number.symm ▸ ⟨found, answer⟩⟩
    · have hlookUp : m.lookUp n = (some kept,
          { m with cache := { m.cache with entries := (n, kept) :: m.cache.others n } }.measure
            (·.countLookup "hit")) := by
        rw [lookUp, hget]
        rfl
      rw [hlookUp]
      exact h.held stocks honest mem label'

/-! ## Requests -/

theorem mirrors_signers (h : Header) : Mirrors a block capacity (signers h) :=
  .ofOperation (unaware_extract h)

theorem mirrors_signerData (serves : a.Serves block) (b : BlockNumber) :
    Mirrors a block capacity (signerData b) :=
  .bind (mirrors_header serves b) fun h => .bind (mirrors_signers h) fun _ => .pure _

/-- A replay reads headers that may be in the cache, and counts into statistics of its own. -/
theorem mirrors_replay (serves : a.Serves block) (head : Header) (n : Nat)
    (number : UInt64) (fresh : Statistics) :
    Mirrors a block capacity (replay head n number fresh) := by
  induction n generalizing number fresh with
  | zero => exact .pure fresh
  | succ n ih =>
    have counted : ∀ h, Mirrors a block capacity (do
        let seals ← signers h
        replay head n (number + 1) (fresh.apply h.number seals.proposer seals.endorsers)) :=
      fun h => .bind (mirrors_signers h) fun seals => ih _ _
    unfold replay
    split
    · exact counted head
    · exact .bind (mirrors_header serves _) counted

theorem mirrors_restart (serves : a.Serves block) (window : UInt64) :
    Mirrors a block capacity (restart window) := by
  unfold restart
  split
  · exact .bind (.change fun m cache lookups => ⟨rfl, rfl⟩) fun _ => .pure _
  · refine .current_bind (fun m cache lookups => rfl) fun m => ?_
    refine .bind (mirrors_header serves .latest) fun head => ?_
    refine .bind (mirrors_replay serves head _ _ _) fun fresh => ?_
    exact .bind (.change (unaware_commit fresh _ _)) fun _ => .pure _

/-- A question that is not for a header reaches the node in any case. -/
theorem mirrors_ask {q : Query} (unlogged : ∀ log, (a.gateway q log).2 = log) :
    Mirrors a block capacity (Inquiry.ask q) := by
  intro m log u asked h stocks
  rw [Inquiry.runWith_ask, Inquiry.runWith_ask, Answers.gateway_fst, Answers.gateway_fst, unlogged,
    unlogged]
  exact ⟨rfl, h, stocks⟩

theorem mirrors_nodeInfo : Mirrors a block capacity nodeInfo := by
  refine .bind (mirrors_ask fun _ => rfl) fun answer => ?_
  cases answer with
  | none => exact .fail _
  | some info => exact .pure info

theorem mirrors_peers : Mirrors a block capacity peers := by
  refine .bind (mirrors_ask fun _ => rfl) fun answer => ?_
  cases answer with
  | none => exact .fail _
  | some list => exact .pure list

theorem mirrors_nextProposer (account : Address) :
    Mirrors a block capacity (nextProposer account) :=
  .ofOperation fun _ _ _ => ⟨rfl, rfl⟩

theorem mirrors_request (serves : a.Serves block) (r : MonitorRequest) :
    Mirrors a block capacity r.perform := by
  cases r with
  | nextProposer account => exact mirrors_nextProposer account
  | call c =>
    cases c with
    | update h => exact .ofOperation (unaware_count h)
    | report h previous => exact .ofOperation (unaware_report h previous)
    | restart window => exact mirrors_restart serves window
    | header b => exact mirrors_header serves b
    | headNumber => exact .bind (mirrors_header serves .latest) fun h => .pure h.number
    | signers h => exact mirrors_signers h
    | signerData b => exact mirrors_signerData serves b
    | nodeInfo => exact mirrors_nodeInfo
    | peers => exact mirrors_peers

end Lookups

/-! ## Runs -/

section Runs

variable {block : UInt64 → Header} {capacity : Nat} {m u : Monitor} {log asked : List Fetch}

/-- What is seen of a run does not depend on the cache. -/
theorem Shadows.afterVisits (h : Shadows block capacity m log u asked) (visits : List Visit)
    (served : ServesChain block visits) (stocks : ∀ v ∈ visits, v.node.Stocks m.cache) :
    sights visits m log = sights visits u asked ∧
      Shadows block capacity (m.afterVisits visits log).1 (m.afterVisits visits log).2
        (u.afterVisits visits asked).1 (u.afterVisits visits asked).2 := by
  induction visits generalizing m log u asked with
  | nil => exact ⟨rfl, h⟩
  | cons v visits ih =>
    obtain ⟨kept, keeps⟩ := List.pairwise_cons.mp served.keeps
    obtain ⟨result, related, stocks'⟩ :=
      mirrors_request (served.serves v List.mem_cons_self) v.request m log u asked h
        (stocks v List.mem_cons_self)
    have later : ServesChain block visits :=
      ⟨fun w mem => served.serves w (List.mem_cons_of_mem _ mem), keeps⟩
    -- what the cache holds now is there at all later visits
    obtain ⟨rest, related'⟩ :=
      ih related later (fun w mem entry held => kept w mem entry.1 (stocks' entry held))
    refine ⟨?_, related'⟩
    have statistics : (v.run m log).2.1.statistics = (v.run u asked).2.1.statistics :=
      (congrArg Monitor.statistics related.same).trans rfl
    show (⟨v.request, (v.run m log).1, (v.run m log).2.1.statistics⟩ : Sight) :: _ = _
    rw [statistics]
    exact congrArg₂ List.cons (congrArg (fun r => (⟨v.request, r, _⟩ : Sight)) result) rest

theorem metrics_watch (m : Monitor) (set : ValidatorSet) :
    (m.watch set).journal.metrics = m.journal.metrics := by
  have warned : ∀ (members : List Address) (m' : Monitor),
      (members.foldl (fun m a => if (m.registry.get? a).isNone then m.warn .unknownOperator else m)
        m').journal.metrics = m'.journal.metrics := by
    intro members
    induction members with
    | nil => exact fun m' => rfl
    | cons a members ih =>
      intro m'
      rw [List.foldl_cons, ih]
      split <;> rfl
  exact warned set.members _

theorem cache_watch (config : MonitorConfig) (registry : Registry) (recover : SignerRecovery)
    (set : ValidatorSet) :
    ((make config registry recover).watch set).cache = .empty config.cacheCapacity := by
  obtain ⟨journal, hwatch⟩ := exists_journal_watch (make config registry recover) set
  exact congrArg Monitor.cache hwatch

theorem shadows_watch (block : UInt64 → Header) (config : MonitorConfig) (registry : Registry)
    (recover : SignerRecovery) (set : ValidatorSet) :
    let m := (make config registry recover).watch set
    Shadows block (max config.cacheCapacity 1) m [] m.uncached [] := by
  intro m
  have cache : m.cache = .empty config.cacheCapacity := cache_watch ..
  have lookups : m.lookups = {} := congrArg Metrics.lookups (metrics_watch _ set)
  exact
    { same := rfl
      bare := rfl
      capacity_eq := by rw [cache]; rfl
      caches := by
        intro entry mem
        rw [cache] at mem
        cases mem
      tallied := by
        intro small
        rw [lookups]
        exact ⟨rfl, rfl⟩ }

end Runs

/-- The cache is transparent. Let the node serve one chain of immutable blocks, its head being
another one at each request. Then the monitor gives the same results and holds the same statistics
after every request as one that has no cache and asks the node each time, and the two differ in
their caches and in the counts of their look-ups only. This holds of requests that fail, too. What
the cache holds for a number is the block of that number. A look-up asks the node for a
number exactly if the cache does not hold it, and for the head in any case, and keeps the head under
its own number; so the monitor without a cache asks once for every look-up, and below `2 ^ 53` of
them, where a count is exact, the counts add up. -/
theorem transparent_run (config : MonitorConfig) (registry : Registry) (recover : SignerRecovery)
    (set : ValidatorSet) (block : UInt64 → Header) (visits : List Visit)
    (served : ServesChain block visits) :
    let start := (make config registry recover).watch set
    let cached := start.afterVisits visits []
    let asking := start.uncached.afterVisits visits []
    start.sights visits [] = start.uncached.sights visits [] ∧
      cached.1 = asking.1.equipped cached.1.cache cached.1.lookups ∧
      asking.1.cache = ⟨0, []⟩ ∧ cached.1.cache.capacity = max config.cacheCapacity 1 ∧
      (∀ n h, (n, h) ∈ cached.1.cache.entries → h = block n) ∧
      (∀ m : Monitor, m.LooksUp) ∧
      (asking.2.length < 2 ^ 53 →
        let count := cached.1.lookups.count
        count "hit" + count "miss" + count "bypass" = asking.2.length ∧
          count "miss" + count "bypass" = cached.2.length) := by
  intro start cached asking
  have cache : start.cache = .empty config.cacheCapacity := cache_watch ..
  obtain ⟨seen, related⟩ :=
    (shadows_watch block config registry recover set).afterVisits visits served
      (fun v mem entry held => by rw [cache] at held; cases held)
  refine ⟨seen, related.same, related.bare, related.capacity_eq, ?_, looksUp, fun small => ?_⟩
  · exact fun n h mem => related.caches (n, h) mem
  · obtain ⟨hlookups, hfetches⟩ := related.tallied small
    exact ⟨hlookups, hfetches⟩

/-- A node with the sealed blocks up to its head. -/
def upTo (head : UInt64) : Answers
  | .header .latest => .ok (some (sealedBlock head))
  | .header (.number n) => .ok (if n ≤ head then some (sealedBlock n) else none)
  | .validators _ => .ok []
  | .nodeInfo => .ok none
  | .peers => .ok none

theorem has_upTo {head n : UInt64} : (upTo head).Has n ↔ n ≤ head := by
  constructor
  · rintro ⟨h, answer⟩
    have answer : (Except.ok (if n ≤ head then some (sealedBlock n) else none) :
        Except MonitorError (Option Header)) = .ok (some h) := answer
    by_contra above
    rw [if_neg above] at answer
    cases answer
  · exact fun below => ⟨sealedBlock n, congrArg Except.ok (if_pos below)⟩

theorem serves_upTo (head : UInt64) : (upTo head).Serves sealedBlock where
  honest :=
    { numbered := fun n => rfl
      byNumber := by
        intro n x h answer
        have below : n ≤ head := has_upTo.mp ⟨h, answer⟩
        have answer : (Except.ok (if n ≤ head then some (sealedBlock n) else none) :
            Except MonitorError (Option Header)) = .ok (some h) := answer
        rw [if_pos below] at answer
        cases answer
        rfl
      latest := by
        intro x h answer
        cases answer
        rfl }
  head := by
    intro h answer
    cases answer
    exact has_upTo.mpr (UInt64.le_refl _)

/-- The last two blocks before block three are counted, block two is asked for again, and after a
new block its predecessor is, which had to make room in a cache for two headers. -/
def growing : List Visit :=
  [⟨upTo 3, .call (.restart 2)⟩, ⟨upTo 3, .call (.header (.number 2))⟩,
   ⟨upTo 4, .call (.header .latest)⟩, ⟨upTo 4, .call (.header (.number 3))⟩,
   ⟨upTo 4, .call (.update (sealedBlock 4))⟩]

theorem served_growing : ServesChain sealedBlock growing where
  serves := by simp [growing, serves_upTo]
  keeps := by
    have advance : ∀ n : UInt64, n ≤ 3 → n ≤ 4 := fun n h => UInt64.le_trans h (by decide)
    simpa [growing, has_upTo] using advance

/-- A monitor with room for two headers. -/
def narrow : Monitor := (make { cacheCapacity := 2 } ⟨[]⟩ spelledOut).watch (.ofMembers [.zero])

theorem log_growing : (narrow.afterVisits growing []).2 =
    [(.latest, .ok (some (sealedBlock 3))), (.number 1, .ok (some (sealedBlock 1))),
     (.number 2, .ok (some (sealedBlock 2))), (.latest, .ok (some (sealedBlock 4))),
     (.number 3, .ok (some (sealedBlock 3)))] := rfl

theorem length_log_uncached : (narrow.uncached.afterVisits growing []).2.length = 6 := rfl

/-- Of six look-ups one is a hit. -/
theorem transparent_growing :
    ServesChain sealedBlock growing ∧
      narrow.sights growing [] = narrow.uncached.sights growing [] ∧
      (narrow.afterVisits growing []).1.lookups.count "hit" +
        (narrow.afterVisits growing []).1.lookups.count "miss" +
        (narrow.afterVisits growing []).1.lookups.count "bypass" = 6 ∧
      (narrow.afterVisits growing []).1.lookups.count "miss" +
        (narrow.afterVisits growing []).1.lookups.count "bypass" = 5 := by
  obtain ⟨seen, -, -, -, -, -, counts⟩ := transparent_run { cacheCapacity := 2 } ⟨[]⟩ spelledOut
    (.ofMembers [.zero]) sealedBlock growing served_growing
  obtain ⟨lookups, fetches⟩ := counts (by
    show (narrow.uncached.afterVisits growing []).2.length < _
    rw [length_log_uncached]
    decide)
  have five : (narrow.afterVisits growing []).2.length = 5 := by
    rw [log_growing]
    rfl
  exact ⟨served_growing, seen, lookups.trans length_log_uncached, fetches.trans five⟩

end Monitor

end IstanbulMonitor
