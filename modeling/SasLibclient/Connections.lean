import SasLibclient.Sql.ExplainSchema
import SasLibclient.Sql.OriginalTable

/-!
# The connections of a parallel read

Every reader has a connection of its own. `CreateChunkQueue` takes the child
aggregators in turn, by the number of the partition, and falls back to the
master aggregator when `Connect` fails. `createReaders_spec` says which calls of
`Connect` the loop makes and what it reports, also when memory runs out in it;
`null_reported` says it of `ParallelReadGetQueue`.
-/

namespace SasLibclient

/-- Where a connection goes, and as whom. -/
structure Credentials where
  host : String
  port : UInt32
  db : String
  user : String
  password : String
  sslCa : Option String
  deriving DecidableEq, Repr

/-- A child aggregator of `information_schema.mv_nodes`. -/
structure AggregatorNode where
  host : String
  port : Int
  externalHost : String
  externalPort : Int
  deriving DecidableEq, Repr

inductive Severity where
  | warning
  | error
  deriving DecidableEq, Repr

/-- A call of `setError` of the callback. -/
structure Report where
  code : UInt32
  message : String
  severity : Severity
  deriving DecidableEq, Repr

/-- A call of `S2Connection::Connect` that made a connection or was refused. -/
structure Attempt where
  creds : Credentials
  error : Option S2ClientError
  deriving DecidableEq, Repr

/-- Why the `k`-th call of `Connect` fails, if it does. -/
abbrev Network := Nat → Credentials → Option S2ClientError

/-- Where `ParallelReadGetQueue` asks for memory. `Connect` asks for its own
before it calls the server. -/
inductive AllocPoint
  | queues
  | rowSchema
  | aggregators
  | sortKey
  | readQuery (partition : Int)
  | reader (partition : Int)
  | fallbackWarning (partition : Int)
  | masterConnection (partition : Int)
  | masterFailure (partition : Int)
  | chunkWriter (partition : Int)
  | readingThread (partition : Int)
  | consumers
  deriving DecidableEq, Repr

/-- Where `std::bad_alloc` is thrown. The handlers of the function itself have
the memory for what they report. -/
abbrev Memory := AllocPoint → Bool

structure BadAlloc where
  deriving DecidableEq, Repr

/-- What an API call leaves besides its result: the calls of `Connect`, those of
the callback, and `m_error` of the client. -/
structure ClientState where
  attempts : List Attempt
  reports : List Report
  error : S2ClientError

namespace ClientState

def create : ClientState := ⟨[], [], .none⟩

def report (s : ClientState) (r : Report) : ClientState := { s with reports := s.reports ++ [r] }

/-- `S2Client::SetError`, with a callback or with a null pointer for it. -/
def setError (s : ClientState) (err : S2ClientError) (cb : Bool) : ClientState :=
  { s with
    reports :=
      if cb then s.reports ++ [⟨err.errorCode, err.errorMessage, .error⟩] else s.reports
    error := err }

/-- `S2Connection::Connect` -/
def connect (N : Network) (creds : Credentials) (s : ClientState) :
    Option S2ClientError × ClientState :=
  let error := N s.attempts.length creds
  (error, { s with attempts := s.attempts ++ [⟨creds, error⟩] })

end ClientState

/-! ## The aggregators -/

/-- `atoi`; a number that is no `int` has no defined value. -/
def atoi (text : List Char) : Int :=
  let number := stoiSign (text.dropWhile isSpace)
  let absolute : Int := (Decimal.readNat number.2).1
  if number.1 then -absolute else absolute

/-- A row of the answer to the query of `GetAggregators`. -/
def aggregatorNode (row : List (Option String)) : AggregatorNode where
  host := (row.getD 1 none).getD ""
  port := ((row.getD 2 none).map fun text => atoi text.toList).getD 0
  externalHost := (row.getD 3 none).getD ""
  externalPort := ((row.getD 4 none).map fun text => atoi text.toList).getD 0

def getAggregators (answer : Except S2ClientError (List (List (Option String)))) :
    Except S2ClientError (List AggregatorNode) :=
  answer.map fun rows => rows.map aggregatorNode

/-- The address of the node; "localhost" would be a socket for the client. -/
def AggregatorNode.fillIn (node : AggregatorNode) (creds : Credentials) : Credentials :=
  let creds :=
    if 0 < node.externalHost.length then
      { creds with host := node.externalHost, port := UInt32.ofInt node.externalPort }
    else
      { creds with host := node.host, port := UInt32.ofInt node.port }
  if creds.host = "localhost" then { creds with host := "127.0.0.1" } else creds

/-- `utils::FillCredentials`; `partition` is converted to `size_t`. -/
def fillCredentials (aggregators : List AggregatorNode) (partition : Int) (creds : Credentials) :
    Credentials :=
  match aggregators[(partition % 2 ^ 64).toNat % aggregators.length]? with
  | none => creds
  | some node => node.fillIn creds

/-! ## The readers -/

/-- What `CreateReader` keeps: the connection, the query and the number of the
queue. -/
structure ReaderConnection where
  partition : Int
  creds : Credentials
  query : String
  queue : Nat
  deriving DecidableEq, Repr

/-- The warning of `CreateReader` when the aggregator fails. -/
def fallbackWarning (e : S2ClientError) (partition : Int) : Report :=
  ⟨s2cErrorBadConnection, "Cannot connect using data from information_schema.mv_nodes: " ++
    e.errorMessage ++ " partition: " ++ toString partition ++ "\n", .warning⟩

def masterFailure (e : S2ClientError) : Report :=
  ⟨s2cErrorBadConnection, "Cannot connect to server using data from CAS worker's S2Client: " ++
    e.errorMessage ++ "\n", .error⟩

/-- The end of `CreateReader`, when the reader is connected. -/
def prepareReader (M : Memory) (reader : ReaderConnection) (s : ClientState) :
    Except BadAlloc (Option ReaderConnection) × ClientState :=
  if M (.chunkWriter reader.partition) then (.error ⟨⟩, s) else (.ok (some reader), s)

/-- `ResultTableReader::CreateReader` -/
def createReader (N : Network) (M : Memory) (creds masterCreds : Credentials) (queue : Nat)
    (query : String) (partition : Int) (s : ClientState) :
    Except BadAlloc (Option ReaderConnection) × ClientState :=
  if M (.reader partition) then (.error ⟨⟩, s)
  else
    match s.connect N creds with
    | (none, s) => prepareReader M ⟨partition, creds, query, queue⟩ s
    | (some e, s) =>
      if M (.fallbackWarning partition) then (.error ⟨⟩, s)
      else
        let s := s.report (fallbackWarning e partition)
        if M (.masterConnection partition) then (.error ⟨⟩, s)
        else
          match s.connect N masterCreds with
          | (none, s) => prepareReader M ⟨partition, masterCreds, query, queue⟩ s
          | (some e, s) =>
            if M (.masterFailure partition) then (.error ⟨⟩, s)
            else (.ok none, s.report (masterFailure e))

/-- The `switch` over the type: the query, or the error that is set before
`return nullptr`, if there is one. -/
def QueueKind.readQuery (kind : QueueKind) (args : ReadArgs) (sortKey : List String)
    (readType : ParallelReadType) (partition : Int) : Except (Option S2ClientError) String :=
  match kind, readType with
  | .streaming, .columnStoreTable =>
    .error (some ⟨s2cErrorInvArg, "Cannot use ReadTypeColumnStoreTable in Single Pass"⟩)
  | .streaming, readType =>
    match StreamingQueue.readQuery args (UInt32.ofInt partition) readType with
    | some query => .ok query
    | none => .error none
  | .multiPass, readType =>
    match MultiPassQueue.readQuery args sortKey (UInt32.ofInt partition) readType with
    | some query => .ok query
    | none => .error none

/-- What `CreateChunkQueue` does: it makes a queue, returns a null pointer,
throws, takes a queue that does not exist, or does not return. -/
inductive Created (α : Type) where
  | queue (readers : α)
  | null
  | throws (e : S2ClientError)
  | badAlloc
  | undefined
  | waits
  deriving DecidableEq, Repr

/-- The loop of `CreateChunkQueue` over the partitions. `creds` is one variable,
that `FillCredentials` overwrites in every turn. -/
def createReaders (N : Network) (M : Memory) (aggregators : List AggregatorNode)
    (masterCreds : Credentials) (readQuery : Int → Except (Option S2ClientError) String)
    (queueOf : Int → Option Nat) :
    List Int → Credentials → ClientState → Created (List ReaderConnection) × ClientState
  | [], _, s => (.queue [], s)
  | partition :: partitions, creds, s =>
    if M (.readQuery partition) then (.badAlloc, s)
    else
      match readQuery partition with
      | .error none => (.null, s)
      | .error (some e) => (.null, s.setError e true)
      | .ok query =>
        let creds := fillCredentials aggregators partition creds
        match queueOf partition with
        | none => (.undefined, s)
        | some queue =>
          match createReader N M creds masterCreds queue query partition s with
          | (.error _, s) => (.badAlloc, s)
          | (.ok none, s) => (.null, s)
          | (.ok (some reader), s) =>
            match createReaders N M aggregators masterCreds readQuery queueOf partitions creds s with
            | (.queue readers, s) => (.queue (reader :: readers), s)
            | result => result

/-- The end of `CreateChunkQueue`. A reader without its thread never leaves its
queue, and the destructor of the chunk queue waits for it. -/
def startReaders (kind : QueueKind) (M : Memory) :
    Created (List ReaderConnection) × ClientState → Created (List ReaderConnection) × ClientState
  | (.queue readers, s) =>
    if readers.any (fun reader => M (.readingThread reader.partition)) then (.waits, s)
    else if kind = .multiPass ∧ readers ≠ [] ∧ M .consumers then (.badAlloc, s)
    else (.queue readers, s)
  | result => result

structure ClientAnswers where
  rowSchema : Except S2ClientError RowSchema
  aggregators : Except S2ClientError (List (List (Option String)))
  tableKeys : Except S2ClientError TableKeys

/-- The sort key for the queries; only `MultiPassQueue` asks for it. -/
def QueueKind.sortKey (kind : QueueKind) (readType : ParallelReadType) (A : ClientAnswers) :
    Except S2ClientError (List String) :=
  if kind = .multiPass ∧ readType = .originalTable then A.tableKeys.map TableKeys.sortKey
  else .ok []

/-- The queue of a partition, as an index into `m_consumer_queues`. -/
def queueIndex {α : Type} (queues : List α) (partitionConsumer : List Int) (partition : Int) :
    Option Nat :=
  match partitionConsumer[partition.toNat]? with
  | some (.ofNat i) => if i < queues.length then some i else none
  | _ => none

/-- The part of `CreateChunkQueue` that makes the connections. -/
def connectReaders (kind : QueueKind) (client : S2Client) (masterCreds : Credentials)
    (args : ReadArgs) (readType : ParallelReadType) (capacity : Nat) (nConsumers : Int)
    (A : ClientAnswers) (N : Network) (M : Memory) (s : ClientState) :
    Created (List ReaderConnection) × ClientState :=
  if M .queues then (.badAlloc, s)
  else
    match workerPartitions client.numWorkers client.workerId client.numPartitions with
    | .error e => (.throws e, s)
    | .ok partitions =>
      match createQueues kind client capacity nConsumers with
      | .error e => (.throws e, s)
      | .ok (queues, partitionConsumer) =>
        if M .rowSchema then (.badAlloc, s)
        else
          match A.rowSchema with
          | .error e => (.null, s.setError e true)
          | .ok _ =>
            if M .aggregators then (.badAlloc, s)
            else
              match getAggregators A.aggregators with
              | .error e => (.null, s.setError e true)
              | .ok aggregators =>
                if M .sortKey then (.badAlloc, s)
                else
                  match kind.sortKey readType A with
                  | .error e => (.throws e, s)
                  | .ok sortKey =>
                    startReaders kind M
                      (createReaders N M aggregators masterCreds
                        (kind.readQuery args sortKey readType) (queueIndex queues partitionConsumer)
                        partitions masterCreds s)

def memoryError : S2ClientError := ⟨s2cErrorMemoryAllocation, "Failed to allocate memory"⟩

/-- `ParallelReadGetQueue` -/
def getQueueConnections (kind : QueueKind) (client : S2Client) (masterCreds : Credentials)
    (args : ReadArgs) (readType : ParallelReadType) (capacity : Nat) (nConsumers : Int)
    (A : ClientAnswers) (N : Network) (M : Memory) (s : ClientState) :
    Created (List ReaderConnection) × ClientState :=
  match connectReaders kind client masterCreds args readType capacity nConsumers A N M
    (s.setError .none false) with
  | (.throws e, s) => (.null, s.setError e true)
  | (.badAlloc, s) => (.null, s.setError memoryError true)
  | result => result

/-! ## What the loop does -/

section Loop

variable {N : Network} {M : Memory} {aggregators : List AggregatorNode}
  {masterCreds creds : Credentials}
  {readQuery : Int → Except (Option S2ClientError) String} {queueOf : Int → Option Nat}
  {partitions : List Int} {s s' : ClientState} {p q : Int}

/-- `FillCredentials` overwrites what an earlier call filled in. -/
theorem fillCredentials_fill (aggregators : List AggregatorNode) (p q : Int) (creds : Credentials) :
    fillCredentials aggregators p (fillCredentials aggregators q creds) =
      fillCredentials aggregators p creds := by
  cases aggregators with
  | nil => rfl
  | cons node nodes =>
    have hget : ∀ r : Int, ∃ n, (node :: nodes)[(r % 2 ^ 64).toNat % (node :: nodes).length]? =
        some n := by
      intro r
      have hlt := Nat.mod_lt (r % 2 ^ 64).toNat (List.length_pos_of_ne_nil (List.cons_ne_nil node nodes))
      exact ⟨_, List.getElem?_eq_getElem hlt⟩
    obtain ⟨np, hp⟩ := hget p
    obtain ⟨nq, hq⟩ := hget q
    simp only [fillCredentials, hp, hq, AggregatorNode.fillIn]
    split_ifs <;> rfl

/-- A turn of the loop that made a reader, with the error of the aggregator if
it failed. -/
structure Turn where
  reader : ReaderConnection
  refused : Option S2ClientError

namespace Turn

def attempts (aggregators : List AggregatorNode) (masterCreds : Credentials) (t : Turn) :
    List Attempt :=
  match t.refused with
  | none => [⟨fillCredentials aggregators t.reader.partition masterCreds, none⟩]
  | some e => [⟨fillCredentials aggregators t.reader.partition masterCreds, some e⟩,
      ⟨masterCreds, none⟩]

def reports (t : Turn) : List Report :=
  (t.refused.map fun e => fallbackWarning e t.reader.partition).toList

/-- The reader of its partition, connected to the aggregator or to the master. -/
structure Makes (aggregators : List AggregatorNode) (masterCreds : Credentials)
    (readQuery : Int → Except (Option S2ClientError) String) (queueOf : Int → Option Nat)
    (t : Turn) : Prop where
  query : readQuery t.reader.partition = .ok t.reader.query
  queue : queueOf t.reader.partition = some t.reader.queue
  creds : t.reader.creds =
    if t.refused = none then fillCredentials aggregators t.reader.partition masterCreds
    else masterCreds

end Turn

def ClientState.afterTurns (aggregators : List AggregatorNode) (masterCreds : Credentials)
    (turns : List Turn) (s : ClientState) : ClientState :=
  { s with
    attempts := s.attempts ++ turns.flatMap (Turn.attempts aggregators masterCreds)
    reports := s.reports ++ turns.flatMap Turn.reports }

/-- What was done for the partitions that are left when memory runs out: the
calls of `Connect` and the warning of the first of them, as far as it came. -/
inductive CutShort (aggregators : List AggregatorNode) (masterCreds : Credentials) :
    List Int → List Attempt → List Report → Prop
  | untouched {left} : CutShort aggregators masterCreds left [] []
  | connected {p rest} :
    CutShort aggregators masterCreds (p :: rest)
      [⟨fillCredentials aggregators p masterCreds, none⟩] []
  | refused {p rest} (e : S2ClientError) :
    CutShort aggregators masterCreds (p :: rest)
      [⟨fillCredentials aggregators p masterCreds, some e⟩] []
  | warned {p rest} (e : S2ClientError) :
    CutShort aggregators masterCreds (p :: rest)
      [⟨fillCredentials aggregators p masterCreds, some e⟩] [fallbackWarning e p]
  | atMaster {p rest} (e : S2ClientError) (answer : Option S2ClientError) :
    CutShort aggregators masterCreds (p :: rest)
      [⟨fillCredentials aggregators p masterCreds, some e⟩, ⟨masterCreds, answer⟩]
      [fallbackWarning e p]

def ClientState.after (attempts : List Attempt) (reports : List Report) (s : ClientState) :
    ClientState :=
  { s with attempts := s.attempts ++ attempts, reports := s.reports ++ reports }

/-- How the loop ends in the state `s`, when these partitions are left. -/
inductive LoopEnd (M : Memory) (aggregators : List AggregatorNode) (masterCreds : Credentials)
    (readQuery : Int → Except (Option S2ClientError) String) (queueOf : Int → Option Nat)
    (readers : List ReaderConnection) (s : ClientState) :
    List Int → Created (List ReaderConnection) × ClientState → Prop
  | all : LoopEnd M aggregators masterCreds readQuery queueOf readers s [] (.queue readers, s)
  | silent {p rest} (hquery : readQuery p = .error none) :
    LoopEnd M aggregators masterCreds readQuery queueOf readers s (p :: rest) (.null, s)
  | wrongType {p rest e} (hquery : readQuery p = .error (some e)) :
    LoopEnd M aggregators masterCreds readQuery queueOf readers s (p :: rest)
      (.null, s.setError e true)
  | noQueue {p rest query} (hquery : readQuery p = .ok query) (hqueue : queueOf p = none) :
    LoopEnd M aggregators masterCreds readQuery queueOf readers s (p :: rest) (.undefined, s)
  /-- neither the aggregator nor the master takes the connection -/
  | refused {p rest query} (e e' : S2ClientError) (hquery : readQuery p = .ok query) :
    LoopEnd M aggregators masterCreds readQuery queueOf readers s (p :: rest)
      (.null, s.after
        [⟨fillCredentials aggregators p masterCreds, some e⟩, ⟨masterCreds, some e'⟩]
        [fallbackWarning e p, masterFailure e'])
  | memory {p rest attempts reports} (hmemory : ∃ point, M point = true)
    (hcut : CutShort aggregators masterCreds (p :: rest) attempts reports) :
    LoopEnd M aggregators masterCreds readQuery queueOf readers s (p :: rest)
      (.badAlloc, s.after attempts reports)

@[simp] theorem ClientState.after_nil (s : ClientState) : s.after [] [] = s := by
  simp [after]

theorem createReader_cases (N : Network) (M : Memory) (aggregators : List AggregatorNode)
    (masterCreds : Credentials) {queue : Nat} {query : String} (rest : List Int) (s : ClientState)
    (hquery : readQuery p = .ok query) (hqueue : queueOf p = some queue) :
    (∃ t : Turn, t.reader.partition = p ∧ t.Makes aggregators masterCreds readQuery queueOf ∧
      createReader N M (fillCredentials aggregators p masterCreds) masterCreds queue query p s =
        (.ok (some t.reader), s.afterTurns aggregators masterCreds [t])) ∨
    (∃ e e',
      createReader N M (fillCredentials aggregators p masterCreds) masterCreds queue query p s =
        (.ok none, s.after
          [⟨fillCredentials aggregators p masterCreds, some e⟩, ⟨masterCreds, some e'⟩]
          [fallbackWarning e p, masterFailure e'])) ∨
    ∃ attempts reports, (∃ point, M point = true) ∧
      CutShort aggregators masterCreds (p :: rest) attempts reports ∧
      createReader N M (fillCredentials aggregators p masterCreds) masterCreds queue query p s =
        (.error ⟨⟩, s.after attempts reports) := by
  unfold createReader prepareReader
  by_cases hreader : M (.reader p) = true
  · exact Or.inr (Or.inr ⟨[], [], ⟨_, hreader⟩, .untouched, by simp [hreader]⟩)
  · cases hfirst : N s.attempts.length (fillCredentials aggregators p masterCreds) with
    | none =>
      by_cases hwriter : M (.chunkWriter p) = true
      · refine Or.inr (Or.inr ⟨_, _, ⟨_, hwriter⟩, .connected, ?_⟩)
        simp [hreader, hwriter, ClientState.connect, hfirst, ClientState.after]
      · refine Or.inl ⟨⟨⟨p, fillCredentials aggregators p masterCreds, query, queue⟩, none⟩, rfl,
          ⟨hquery, hqueue, rfl⟩, ?_⟩
        simp [hreader, hwriter, ClientState.connect, hfirst, ClientState.afterTurns, Turn.attempts,
          Turn.reports]
    | some e =>
      by_cases hwarning : M (.fallbackWarning p) = true
      · refine Or.inr (Or.inr ⟨_, _, ⟨_, hwarning⟩, .refused e, ?_⟩)
        simp [hreader, hwarning, ClientState.connect, hfirst, ClientState.after]
      by_cases hmaster : M (.masterConnection p) = true
      · refine Or.inr (Or.inr ⟨_, _, ⟨_, hmaster⟩, .warned e, ?_⟩)
        simp [hreader, hwarning, hmaster, ClientState.connect, hfirst, ClientState.report,
          ClientState.after]
      cases hsecond : N (s.attempts.length + 1) masterCreds with
      | none =>
        by_cases hwriter : M (.chunkWriter p) = true
        · refine Or.inr (Or.inr ⟨_, _, ⟨_, hwriter⟩, .atMaster e none, ?_⟩)
          simp [hreader, hwarning, hmaster, hwriter, ClientState.connect, hfirst, hsecond,
            ClientState.report, ClientState.after]
        · refine Or.inl ⟨⟨⟨p, masterCreds, query, queue⟩, some e⟩, rfl, ⟨hquery, hqueue, rfl⟩, ?_⟩
          simp [hreader, hwarning, hmaster, hwriter, ClientState.connect, hfirst, hsecond,
            ClientState.report, ClientState.afterTurns, Turn.attempts, Turn.reports]
      | some e' =>
        by_cases hfailure : M (.masterFailure p) = true
        · refine Or.inr (Or.inr ⟨_, _, ⟨_, hfailure⟩, .atMaster e (some e'), ?_⟩)
          simp [hreader, hwarning, hmaster, hfailure, ClientState.connect, hfirst, hsecond,
            ClientState.report, ClientState.after]
        · refine Or.inr (Or.inl ⟨e, e', ?_⟩)
          simp [hreader, hwarning, hmaster, hfailure, ClientState.connect, hfirst, hsecond,
            ClientState.report, ClientState.after]

@[simp] theorem ClientState.afterTurns_nil (aggregators : List AggregatorNode)
    (masterCreds : Credentials) (s : ClientState) : s.afterTurns aggregators masterCreds [] = s := by
  simp [afterTurns]

theorem ClientState.afterTurns_cons (aggregators : List AggregatorNode) (masterCreds : Credentials)
    (t : Turn) (turns : List Turn) (s : ClientState) :
    (s.afterTurns aggregators masterCreds [t]).afterTurns aggregators masterCreds turns =
      s.afterTurns aggregators masterCreds (t :: turns) := by
  simp [afterTurns, List.append_assoc]

/-- **The loop** makes a reader for each of the partitions up to one at which it
stops, and tries the aggregator of a partition first. -/
theorem createReaders_spec (N : Network) (M : Memory) (aggregators : List AggregatorNode)
    (masterCreds : Credentials) (readQuery : Int → Except (Option S2ClientError) String)
    (queueOf : Int → Option Nat) (partitions : List Int) (creds : Credentials)
    (hcreds : ∀ p, fillCredentials aggregators p creds = fillCredentials aggregators p masterCreds)
    (s : ClientState) :
    ∃ (turns : List Turn) (rest : List Int),
      partitions = turns.map (fun t => t.reader.partition) ++ rest ∧
      (∀ t ∈ turns, t.Makes aggregators masterCreds readQuery queueOf) ∧
      LoopEnd M aggregators masterCreds readQuery queueOf (turns.map Turn.reader)
        (s.afterTurns aggregators masterCreds turns) rest
        (createReaders N M aggregators masterCreds readQuery queueOf partitions creds s) := by
  induction partitions generalizing creds s with
  | nil =>
    refine ⟨[], [], rfl, fun _ ht => (nomatch ht), ?_⟩
    rw [ClientState.afterTurns_nil]
    exact .all
  | cons p partitions ih =>
    have hstop : ∀ {result},
        LoopEnd M aggregators masterCreds readQuery queueOf [] s (p :: partitions) result →
        ∃ (turns : List Turn) (rest : List Int),
          p :: partitions = turns.map (fun t => t.reader.partition) ++ rest ∧
          (∀ t ∈ turns, t.Makes aggregators masterCreds readQuery queueOf) ∧
          LoopEnd M aggregators masterCreds readQuery queueOf (turns.map Turn.reader)
            (s.afterTurns aggregators masterCreds turns) rest result := by
      intro result hend
      refine ⟨[], p :: partitions, rfl, fun _ ht => (nomatch ht), ?_⟩
      rw [ClientState.afterTurns_nil]
      exact hend
    rw [createReaders]
    by_cases hmemory : M (.readQuery p) = true
    · rw [if_pos hmemory]
      refine hstop ?_
      simpa using LoopEnd.memory ⟨_, hmemory⟩ .untouched
    rw [if_neg hmemory]
    cases hquery : readQuery p with
    | error err =>
      cases err with
      | none => exact hstop (.silent hquery)
      | some e => exact hstop (.wrongType hquery)
    | ok query =>
      dsimp only
      cases hqueue : queueOf p with
      | none => exact hstop (.noQueue hquery hqueue)
      | some queue =>
        dsimp only
        rw [hcreds p]
        rcases createReader_cases N M aggregators masterCreds partitions s hquery hqueue with
          ⟨t, rfl, ht, hmade⟩ | ⟨e, e', hrefused⟩ | ⟨attempts, reports, hmemory, hcut, hthrows⟩
        · rw [hmade]
          dsimp only
          -- the other turns find the same variable, filled in again
          obtain ⟨turns, rest, hsplit, hturns, hend⟩ := ih
            (fillCredentials aggregators t.reader.partition masterCreds)
            (fun q => fillCredentials_fill aggregators q _ masterCreds)
            (s.afterTurns aggregators masterCreds [t])
          rw [ClientState.afterTurns_cons] at hend
          refine ⟨t :: turns, rest, by rw [hsplit, List.map_cons, List.cons_append],
            List.forall_mem_cons.mpr ⟨ht, hturns⟩, ?_⟩
          generalize createReaders N M aggregators masterCreds readQuery queueOf partitions
            (fillCredentials aggregators t.reader.partition masterCreds)
            (s.afterTurns aggregators masterCreds [t]) = result at hend
          cases hend with
          | all => exact .all
          | silent hquery => exact .silent hquery
          | wrongType hquery => exact .wrongType hquery
          | noQueue hquery hqueue => exact .noQueue hquery hqueue
          | refused e e' hquery => exact .refused e e' hquery
          | memory hmemory hcut => exact .memory hmemory hcut
        · rw [hrefused]
          exact hstop (.refused e e' hquery)
        · rw [hthrows]
          exact hstop (.memory hmemory hcut)

end Loop

/-! ## `ParallelReadGetQueue` -/

section GetQueue

variable {kind : QueueKind} {client : S2Client} {masterCreds : Credentials} {args : ReadArgs}
  {readType : ParallelReadType} {capacity : Nat} {nConsumers : Int} {A : ClientAnswers}
  {N : Network} {M : Memory} {s s' : ClientState} {readers : List ReaderConnection}

/-- What goes wrong before the first `Connect`. -/
inductive FailsEarly (kind : QueueKind) (client : S2Client) (readType : ParallelReadType)
    (capacity : Nat) (nConsumers : Int) (A : ClientAnswers) : S2ClientError → Prop
  | workers {e} (h : workerPartitions client.numWorkers client.workerId client.numPartitions =
      .error e) : FailsEarly kind client readType capacity nConsumers A e
  | consumers {e} (h : createQueues kind client capacity nConsumers = .error e) :
    FailsEarly kind client readType capacity nConsumers A e
  | rowSchema {e} (h : A.rowSchema = .error e) :
    FailsEarly kind client readType capacity nConsumers A e
  | aggregators {e} (h : A.aggregators = .error e) :
    FailsEarly kind client readType capacity nConsumers A e
  | tableKeys {e} (hkind : kind = .multiPass) (htype : readType = .originalTable)
    (h : A.tableKeys = .error e) : FailsEarly kind client readType capacity nConsumers A e
  | singlePass (hkind : kind = .streaming) (htype : readType = .columnStoreTable) :
    FailsEarly kind client readType capacity nConsumers A
      ⟨s2cErrorInvArg, "Cannot use ReadTypeColumnStoreTable in Single Pass"⟩

theorem connectReaders_cases (kind : QueueKind) (client : S2Client) (masterCreds : Credentials)
    (args : ReadArgs) (readType : ParallelReadType) (capacity : Nat) (nConsumers : Int)
    (A : ClientAnswers) (N : Network) (M : Memory) (s : ClientState) :
    (∃ e, FailsEarly kind client readType capacity nConsumers A e ∧
      (connectReaders kind client masterCreds args readType capacity nConsumers A N M s =
          (.throws e, s) ∨
        connectReaders kind client masterCreds args readType capacity nConsumers A N M s =
          (.null, s.setError e true))) ∨
    ((∃ point, M point = true) ∧
      connectReaders kind client masterCreds args readType capacity nConsumers A N M s =
        (.badAlloc, s)) ∨
    ∃ partitions queues partitionConsumer aggregators sortKey,
      workerPartitions client.numWorkers client.workerId client.numPartitions = .ok partitions ∧
      createQueues kind client capacity nConsumers = .ok (queues, partitionConsumer) ∧
      getAggregators A.aggregators = .ok aggregators ∧ kind.sortKey readType A = .ok sortKey ∧
      connectReaders kind client masterCreds args readType capacity nConsumers A N M s =
        startReaders kind M
          (createReaders N M aggregators masterCreds (kind.readQuery args sortKey readType)
            (queueIndex queues partitionConsumer) partitions masterCreds s) := by
  unfold connectReaders
  by_cases hmemory : M .queues = true
  · exact Or.inr (Or.inl ⟨⟨_, hmemory⟩, if_pos hmemory⟩)
  rw [if_neg hmemory]
  cases hpart : workerPartitions client.numWorkers client.workerId client.numPartitions with
  | error e => exact Or.inl ⟨e, .workers hpart, Or.inl rfl⟩
  | ok partitions =>
    cases hqueues : createQueues kind client capacity nConsumers with
    | error e => exact Or.inl ⟨e, .consumers hqueues, Or.inl rfl⟩
    | ok made =>
      dsimp only
      by_cases hmemory : M .rowSchema = true
      · exact Or.inr (Or.inl ⟨⟨_, hmemory⟩, if_pos hmemory⟩)
      rw [if_neg hmemory]
      cases hschema : A.rowSchema with
      | error e => exact Or.inl ⟨e, .rowSchema hschema, Or.inr rfl⟩
      | ok schema =>
        dsimp only
        by_cases hmemory : M .aggregators = true
        · exact Or.inr (Or.inl ⟨⟨_, hmemory⟩, if_pos hmemory⟩)
        rw [if_neg hmemory]
        cases haggregators : A.aggregators with
        | error e => exact Or.inl ⟨e, .aggregators haggregators, Or.inr rfl⟩
        | ok rows =>
          by_cases hmemory : M .sortKey = true
          · exact Or.inr (Or.inl ⟨⟨_, hmemory⟩, if_pos hmemory⟩)
          simp only [getAggregators, Except.map, if_neg hmemory]
          cases hsort : kind.sortKey readType A with
          | error e =>
            refine Or.inl ⟨e, ?_, Or.inl rfl⟩
            rw [QueueKind.sortKey] at hsort
            split at hsort
            · obtain ⟨hkind, htype⟩ := ‹kind = .multiPass ∧ readType = .originalTable›
              cases hkeys : A.tableKeys with
              | error e' =>
                rw [hkeys] at hsort
                obtain rfl : e' = e := Except.error.inj hsort
                exact .tableKeys hkind htype hkeys
              | ok keys =>
                rw [hkeys] at hsort
                cases hsort
            · cases hsort
          | ok sortKey =>
            exact Or.inr (Or.inr ⟨partitions, made.1, made.2, _, sortKey, rfl, rfl, rfl, rfl, rfl⟩)

theorem startReaders_queue (kind : QueueKind) (M : Memory) (readers : List ReaderConnection)
    (s : ClientState) :
    startReaders kind M (.queue readers, s) = (.queue readers, s) ∨
      startReaders kind M (.queue readers, s) = (.waits, s) ∨
      (∃ point, M point = true) ∧ startReaders kind M (.queue readers, s) = (.badAlloc, s) := by
  rw [startReaders]
  split_ifs with hthread hconsumers
  · exact Or.inr (Or.inl rfl)
  · exact Or.inr (Or.inr ⟨⟨_, hconsumers.2.2⟩, rfl⟩)
  · exact Or.inl rfl

/-- An error of the `switch` does not depend on the partition. -/
theorem readQuery_error {sortKey : List String} {p : Int} {err : Option S2ClientError}
    (h : kind.readQuery args sortKey readType p = .error err) (q : Int) :
    kind.readQuery args sortKey readType q = .error err := by
  cases kind with
  | multiPass =>
    cases readType with
    | unknown => exact h
    | resultTable | originalTable | columnStoreTable => cases h
  | streaming =>
    cases readType with
    | unknown | columnStoreTable => exact h
    | resultTable | originalTable => cases h

/-- Without a query and an error the type is not known. -/
theorem readQuery_silent {sortKey : List String} {p : Int}
    (h : kind.readQuery args sortKey readType p = .error none) : readType = .unknown := by
  cases kind with
  | multiPass =>
    cases readType with
    | unknown => rfl
    | resultTable | originalTable | columnStoreTable => cases h
  | streaming =>
    cases readType with
    | unknown => rfl
    | resultTable | originalTable | columnStoreTable => cases h

theorem FailsEarly.of_readQuery {sortKey : List String} {p : Int} {e : S2ClientError}
    (h : kind.readQuery args sortKey readType p = .error (some e)) :
    FailsEarly kind client readType capacity nConsumers A e := by
  cases kind with
  | multiPass =>
    cases readType with
    | unknown | resultTable | originalTable | columnStoreTable => cases h
  | streaming =>
    cases readType with
    | unknown | resultTable | originalTable => cases h
    | columnStoreTable =>
      obtain rfl := Option.some.inj (Except.error.inj h)
      exact .singlePass rfl rfl

/-- Without a query no turn makes a reader. -/
theorem Turn.eq_nil_of_error {aggregators : List AggregatorNode}
    {readQuery : Int → Except (Option S2ClientError) String} {queueOf : Int → Option Nat}
    {turns : List Turn} {err : Option S2ClientError}
    (hturns : ∀ t ∈ turns, t.Makes aggregators masterCreds readQuery queueOf)
    (hquery : ∀ q, readQuery q = .error err) : turns = [] := by
  cases turns with
  | nil => rfl
  | cons t turns =>
    have hmade := (hturns t List.mem_cons_self).query
    rw [hquery] at hmade
    cases hmade

/-- The loop that `connectReaders` came to, with its turns and its end. -/
theorem connectReaders_spec (kind : QueueKind) (client : S2Client) (masterCreds : Credentials)
    (args : ReadArgs) (readType : ParallelReadType) (capacity : Nat) (nConsumers : Int)
    (A : ClientAnswers) (N : Network) (M : Memory) (s : ClientState) :
    (∃ e, FailsEarly kind client readType capacity nConsumers A e ∧
      (connectReaders kind client masterCreds args readType capacity nConsumers A N M s =
          (.throws e, s) ∨
        connectReaders kind client masterCreds args readType capacity nConsumers A N M s =
          (.null, s.setError e true))) ∨
    ((∃ point, M point = true) ∧
      connectReaders kind client masterCreds args readType capacity nConsumers A N M s =
        (.badAlloc, s)) ∨
    ∃ queues partitionConsumer aggregators sortKey turns rest result,
      workerPartitions client.numWorkers client.workerId client.numPartitions =
        .ok (turns.map (fun t => t.reader.partition) ++ rest) ∧
      createQueues kind client capacity nConsumers = .ok (queues, partitionConsumer) ∧
      getAggregators A.aggregators = .ok aggregators ∧ kind.sortKey readType A = .ok sortKey ∧
      (∀ t ∈ turns, t.Makes aggregators masterCreds (kind.readQuery args sortKey readType)
        (queueIndex queues partitionConsumer)) ∧
      LoopEnd M aggregators masterCreds (kind.readQuery args sortKey readType)
        (queueIndex queues partitionConsumer) (turns.map Turn.reader)
        (s.afterTurns aggregators masterCreds turns) rest result ∧
      connectReaders kind client masterCreds args readType capacity nConsumers A N M s =
        startReaders kind M result := by
  rcases connectReaders_cases kind client masterCreds args readType capacity nConsumers A N M s with
    hfail | hmemory | ⟨partitions, queues, partitionConsumer, aggregators, sortKey, hpart, hqueues,
      haggregators, hsort, hloop⟩
  · exact Or.inl hfail
  · exact Or.inr (Or.inl hmemory)
  · obtain ⟨turns, rest, rfl, hturns, hend⟩ := createReaders_spec N M aggregators masterCreds
      (kind.readQuery args sortKey readType) (queueIndex queues partitionConsumer) partitions
      masterCreds (fun _ => rfl) s
    exact Or.inr (Or.inr ⟨queues, partitionConsumer, aggregators, sortKey, turns, rest, _, hpart,
      hqueues, haggregators, hsort, hturns, hend, hloop⟩)

/-- What `ParallelReadGetQueue` has done when the queue is there. -/
theorem readers_of_queue
    (h : getQueueConnections kind client masterCreds args readType capacity nConsumers A N M s =
      (.queue readers, s')) :
    ∃ aggregators sortKey queues partitionConsumer, ∃ turns : List Turn,
      getAggregators A.aggregators = .ok aggregators ∧ kind.sortKey readType A = .ok sortKey ∧
      createQueues kind client capacity nConsumers = .ok (queues, partitionConsumer) ∧
      workerPartitions client.numWorkers client.workerId client.numPartitions =
        .ok (readers.map ReaderConnection.partition) ∧
      readers = turns.map Turn.reader ∧
      (∀ t ∈ turns, t.Makes aggregators masterCreds (kind.readQuery args sortKey readType)
        (queueIndex queues partitionConsumer)) ∧
      s' = (s.setError .none false).afterTurns aggregators masterCreds turns := by
  rw [getQueueConnections] at h
  rcases connectReaders_spec kind client masterCreds args readType capacity nConsumers A N M
    (s.setError .none false) with
    ⟨e, _, hfail | hfail⟩ | ⟨-, hfail⟩ | ⟨queues, partitionConsumer, aggregators, sortKey, turns,
      rest, result, hpart, hqueues, haggregators, hsort, hturns, hend, hloop⟩
  · rw [hfail] at h
    cases h
  · rw [hfail] at h
    cases h
  · rw [hfail] at h
    cases h
  · rw [hloop] at h
    cases hend with
    | all =>
      rcases startReaders_queue kind M (turns.map Turn.reader)
        ((s.setError .none false).afterTurns aggregators masterCreds turns) with
        hstart | hstart | ⟨-, hstart⟩
      · rw [hstart] at h
        obtain ⟨hreaders, rfl⟩ := Prod.mk.inj h
        obtain rfl := Created.queue.inj hreaders
        refine ⟨aggregators, sortKey, queues, partitionConsumer, turns, haggregators, hsort,
          hqueues, ?_, rfl, hturns, rfl⟩
        rw [hpart, List.append_nil, List.map_map]
        rfl
      · rw [hstart] at h
        cases h
      · rw [hstart] at h
        cases h
    | silent | wrongType | noQueue | refused | memory => cases h

/-- What `ParallelReadGetQueue` has done when it returns a null pointer. -/
inductive NullResult (kind : QueueKind) (client : S2Client) (masterCreds : Credentials)
    (readType : ParallelReadType) (capacity : Nat) (nConsumers : Int) (A : ClientAnswers)
    (M : Memory) (s s' : ClientState) : Prop
  /-- an error before the first `Connect`, that the callback and `S2Errno` have -/
  | early (e : S2ClientError) (he : FailsEarly kind client readType capacity nConsumers A e)
    (herror : s'.error = e) (hattempts : s'.attempts = s.attempts)
    (hreports : s'.reports = s.reports ++ [⟨e.errorCode, e.errorMessage, .error⟩])
  /-- a type that is not known, without any report -/
  | unknownType (htype : readType = .unknown) (hs : s' = s.setError .none false)
  /-- a partition whose connection the aggregator and the master refuse, behind
  partitions that have readers; only the callback has the error -/
  | refused (partitions rest : List Int) (aggregators : List AggregatorNode) (turns : List Turn)
    (p : Int) (e e' : S2ClientError)
    (hpart : workerPartitions client.numWorkers client.workerId client.numPartitions =
      .ok partitions)
    (haggregators : getAggregators A.aggregators = .ok aggregators)
    (hsplit : partitions = turns.map (fun t => t.reader.partition) ++ p :: rest)
    (herror : s'.error = .none)
    (hattempts : s'.attempts =
      s.attempts ++ turns.flatMap (Turn.attempts aggregators masterCreds) ++
        [⟨fillCredentials aggregators p masterCreds, some e⟩, ⟨masterCreds, some e'⟩])
    (hreports : s'.reports = s.reports ++ turns.flatMap Turn.reports ++
      [fallbackWarning e p, masterFailure e'])
  /-- no memory before the first `Connect` -/
  | noMemory (hmemory : ∃ point, M point = true) (herror : s'.error = memoryError)
    (hattempts : s'.attempts = s.attempts)
    (hreports : s'.reports =
      s.reports ++ [⟨memoryError.errorCode, memoryError.errorMessage, .error⟩])
  /-- no memory for the partitions that are left, or behind the last one; the
  callback and `S2Errno` have that error -/
  | memory (partitions left : List Int) (aggregators : List AggregatorNode) (turns : List Turn)
    (attempts : List Attempt) (reports : List Report)
    (hmemory : ∃ point, M point = true)
    (hpart : workerPartitions client.numWorkers client.workerId client.numPartitions =
      .ok partitions)
    (haggregators : getAggregators A.aggregators = .ok aggregators)
    (hsplit : partitions = turns.map (fun t => t.reader.partition) ++ left)
    (hcut : CutShort aggregators masterCreds left attempts reports)
    (herror : s'.error = memoryError)
    (hattempts : s'.attempts =
      s.attempts ++ turns.flatMap (Turn.attempts aggregators masterCreds) ++ attempts)
    (hreports : s'.reports = s.reports ++ turns.flatMap Turn.reports ++ reports ++
      [⟨memoryError.errorCode, memoryError.errorMessage, .error⟩])

/-- **A null pointer is reported**, unless the type is not known; the error of
the client is not set when a reader could not be connected. -/
theorem null_reported
    (h : getQueueConnections kind client masterCreds args readType capacity nConsumers A N M s =
      (.null, s')) :
    NullResult kind client masterCreds readType capacity nConsumers A M s s' := by
  have hearly : ∀ e, FailsEarly kind client readType capacity nConsumers A e →
      s' = (s.setError .none false).setError e true →
      NullResult kind client masterCreds readType capacity nConsumers A M s s' := by
    rintro e he rfl
    exact .early e he rfl rfl rfl
  rw [getQueueConnections] at h
  rcases connectReaders_spec kind client masterCreds args readType capacity nConsumers A N M
    (s.setError .none false) with
    ⟨e, he, hfail | hfail⟩ | ⟨hmemory, hfail⟩ | ⟨queues, partitionConsumer, aggregators, sortKey,
      turns, rest, result, hpart, -, haggregators, -, hturns, hend, hloop⟩
  · rw [hfail] at h
    exact hearly e he (Prod.mk.inj h).2.symm
  · rw [hfail] at h
    exact hearly e he (Prod.mk.inj h).2.symm
  · rw [hfail] at h
    obtain ⟨-, rfl⟩ := Prod.mk.inj h
    exact .noMemory hmemory rfl rfl rfl
  · rw [hloop] at h
    cases hend with
    | all =>
      rcases startReaders_queue kind M (turns.map Turn.reader)
        ((s.setError .none false).afterTurns aggregators masterCreds turns) with
        hstart | hstart | ⟨hmemory, hstart⟩
      · rw [hstart] at h
        cases h
      · rw [hstart] at h
        cases h
      · rw [hstart] at h
        obtain ⟨-, rfl⟩ := Prod.mk.inj h
        refine .memory _ [] aggregators turns [] [] hmemory hpart haggregators rfl .untouched rfl
          ?_ ?_
        · rw [List.append_nil]
          rfl
        · rw [List.append_nil]
          rfl
    | noQueue => cases h
    | memory hmemory hcut =>
      obtain ⟨-, rfl⟩ := Prod.mk.inj h
      exact .memory _ _ aggregators turns _ _ hmemory hpart haggregators rfl hcut rfl rfl rfl
    | refused e e' hquery =>
      obtain ⟨-, rfl⟩ := Prod.mk.inj h
      exact .refused _ _ aggregators turns _ e e' hpart haggregators rfl rfl rfl rfl
    -- without a query the loop stops in its first turn
    | silent hquery =>
      obtain ⟨-, rfl⟩ := Prod.mk.inj h
      rw [Turn.eq_nil_of_error hturns (readQuery_error hquery), ClientState.afterTurns_nil]
      exact .unknownType (readQuery_silent hquery) rfl
    | wrongType hquery =>
      obtain ⟨-, rfl⟩ := Prod.mk.inj h
      refine hearly _ (.of_readQuery hquery) ?_
      rw [Turn.eq_nil_of_error hturns (readQuery_error hquery), ClientState.afterTurns_nil]

end GetQueue

/-! ### No aggregator takes connections -/

def idSchema : RowSchema := ⟨[⟨.int64, 8, "id"⟩], by decide⟩

def idArgs : ReadArgs := ⟨"tmp", "SELECT * FROM t", "id", ⟨[], 0, by decide⟩⟩

def clusterDown : ClientAnswers where
  rowSchema := .ok idSchema
  aggregators := .ok [[some "CA", some "node1", some "3306"]]
  tableKeys := .ok ⟨∅, []⟩

def clusterDownQueue (M : Memory) : Created (List ReaderConnection) × ClientState :=
  getQueueConnections .multiPass ⟨2, 0, 1⟩ ⟨"master", 3306, "db", "root", "", none⟩
    idArgs .resultTable 1 1 clusterDown
    (fun k creds => if k < 2 ∧ creds.host = "master" then none else some ⟨2003, "Can't connect"⟩)
    M .create

/-- The master takes one connection; the second reader is refused, or finds no
memory for its warning. -/
theorem null_reported_clusterDown :
    NullResult .multiPass ⟨2, 0, 1⟩ ⟨"master", 3306, "db", "root", "", none⟩ .resultTable 1 1
        clusterDown (fun _ => false) .create (clusterDownQueue fun _ => false).2 ∧
      NullResult .multiPass ⟨2, 0, 1⟩ ⟨"master", 3306, "db", "root", "", none⟩ .resultTable 1 1
        clusterDown (fun point => point == .fallbackWarning 1) .create
        (clusterDownQueue fun point => point == .fallbackWarning 1).2 := by
  have hrefused : clusterDownQueue (fun _ => false) =
      (.null, (clusterDownQueue fun _ => false).2) := Prod.ext (by decide +kernel) rfl
  have hmemory : clusterDownQueue (fun point => point == .fallbackWarning 1) =
      (.null, (clusterDownQueue fun point => point == .fallbackWarning 1).2) :=
    Prod.ext (by decide +kernel) rfl
  exact ⟨null_reported hrefused, null_reported hmemory⟩

end SasLibclient
