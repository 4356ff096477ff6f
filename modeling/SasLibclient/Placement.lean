import Mathlib.Data.Nat.ChineseRemainder
import Mathlib.Data.Int.CardIntervalMod
import SasLibclient.Connections
import SasLibclient.Monitor.Progress

/-!
# Where the connections go

The readers of all workers against the list of aggregators: `readers_placed`
counts the readers of each aggregator over the cluster and says which
aggregators one worker can reach. `connections_bounded` bounds the connections
of a multi-pass queue over any sequence of random reads.
-/

namespace SasLibclient

open Loops

/-! ## The readers of the cluster -/

/-- The place of the partition in the list of `n` aggregators. -/
def ReaderConnection.place (n : Nat) (r : ReaderConnection) : Nat := r.partition.toNat % n

/-- A worker has the partitions that leave its number as the remainder. -/
theorem mem_strided_iff {W w p T : Nat} (hw : w < W) :
    (p : Int) ∈ strided w W T ↔ p < T ∧ p ≡ w [MOD W] := by
  rw [mem_strided (by omega), Nat.ModEq.comm, Nat.modEq_iff_dvd]
  constructor
  · rintro ⟨_, hlt, hdvd⟩
    exact ⟨by omega, hdvd⟩
  · rintro ⟨hlt, hdvd⟩
    have hmod : w % W = p % W := Nat.modEq_iff_dvd.mpr hdvd
    have hle := Nat.mod_le p W
    rw [Nat.mod_eq_of_lt hw] at hmod
    exact ⟨by omega, by omega, hdvd⟩

theorem strided_workers_perm {W : Nat} (hW : 0 < W) (T : Nat) :
    ((List.range W).flatMap fun w : Nat => strided w W T).Perm
      ((List.range T).map fun p : Nat => (p : Int)) := by
  have hstep : (0 : Int) < W := by omega
  refine (List.perm_ext_iff_of_nodup ?_ ?_).mpr fun p => ?_
  · refine List.nodup_flatMap.mpr ⟨fun w _ => strided_nodup _ _ _, ?_⟩
    refine List.nodup_range.imp_of_mem fun {w w'} hw hw' hne => ?_
    rw [List.mem_range] at hw hw'
    intro p hp hp'
    have hsame := strided_disjoint hstep (by omega) (by omega) (by omega) (by omega) hp hp'
    exact hne (by omega)
  · exact List.nodup_range.map fun p q h => by omega
  · simp only [List.mem_flatMap, List.mem_range, List.mem_map]
    constructor
    · rintro ⟨w, hw, hp⟩
      obtain ⟨hle, hlt, _⟩ := (mem_strided hstep).mp hp
      exact ⟨p.toNat, by omega, by omega⟩
    · rintro ⟨q, hq, rfl⟩
      have hlt := Nat.mod_lt q hW
      exact ⟨q % W, hlt, (mem_strided_iff hlt).mpr ⟨hq, (Nat.mod_modEq q W).symm⟩⟩

section Cluster

variable {kind : QueueKind} {masterCreds : Nat → Credentials} {args : ReadArgs}
  {readType : ParallelReadType} {capacity W T : Nat} {nConsumers : Nat → Int}
  {A : Nat → ClientAnswers} {N : Nat → Network} {M : Nat → Memory} {s s' : Nat → ClientState}
  {aggregators : List AggregatorNode} {readers : Nat → List ReaderConnection}

theorem partitions_of_queue {w : Nat} {C : S2Client} {masterCreds : Credentials}
    {nConsumers : Int} {A : ClientAnswers} {N : Network} {M : Memory} {s s' : ClientState}
    {readers : List ReaderConnection} (hW : 0 < C.numWorkers) (hw : C.workerId = w)
    (h : getQueueConnections kind C masterCreds args readType capacity nConsumers A N M s =
      (.queue readers, s')) :
    readers.map ReaderConnection.partition = strided w C.numWorkers C.numPartitions := by
  obtain ⟨_, _, _, _, _, -, -, -, hpart, -⟩ := readers_of_queue h
  rw [workerPartitions_ok (by omega), hw] at hpart
  exact (Except.ok.inj hpart).symm

/-- The connection of a reader, and the warning if it is not the planned one. -/
theorem creds_of_queue {client : S2Client} {masterCreds : Credentials} {nConsumers : Int}
    {A : ClientAnswers} {N : Network} {M : Memory} {s s' : ClientState} {readers : List ReaderConnection}
    (haggregators : getAggregators A.aggregators = .ok aggregators)
    (h : getQueueConnections kind client masterCreds args readType capacity nConsumers A N M s =
      (.queue readers, s')) {r : ReaderConnection} (hr : r ∈ readers) :
    r.creds = fillCredentials aggregators r.partition masterCreds ∨
      r.creds = masterCreds ∧ ∃ e, fallbackWarning e r.partition ∈ s'.reports := by
  obtain ⟨aggregators', _, _, _, turns, haggregators', -, -, -, rfl, hturns, rfl⟩ :=
    readers_of_queue h
  obtain rfl : aggregators = aggregators' :=
    Except.ok.inj (haggregators.symm.trans haggregators')
  obtain ⟨t, ht, rfl⟩ := List.mem_map.mp hr
  have hcreds := (hturns t ht).creds
  cases hrefused : t.refused with
  | none =>
    rw [if_pos hrefused] at hcreds
    exact Or.inl hcreds
  | some e =>
    rw [if_neg (hrefused ▸ Option.some_ne_none e)] at hcreds
    refine Or.inr ⟨hcreds, e, List.mem_append_right _ (List.mem_flatMap.mpr ⟨t, ht, ?_⟩)⟩
    simp [Turn.reports, hrefused]

theorem countP_remainder {n a : Nat} (ha : a < n) (T : Nat) :
    (List.range T).countP (fun p => p % n == a) = T / n + if a < T % n then 1 else 0 := by
  have hcount := Nat.count_modEq_card T (by omega : 0 < n) a
  rw [Nat.mod_eq_of_lt ha] at hcount
  rw [← hcount, Nat.count]
  refine List.countP_congr fun p _ => ?_
  rw [beq_iff_eq, decide_eq_true_eq, Nat.ModEq, Nat.mod_eq_of_lt ha]

/-- **The readers are spread over the aggregators.** When all workers have their
queues, every partition has one reader in the cluster. It is connected to the
aggregator whose turn the partition is, or to the master, and then a warning
names the partition. Over the cluster the numbers of readers of two aggregators
differ by at most one; a single worker reaches the aggregators only whose places
agree with its number modulo the greatest common divisor, and all of these when
there are enough partitions. -/
theorem readers_placed (hW : 0 < W) (hrange : (W : Int) + T ≤ intMax) (hne : aggregators ≠ [])
    (haggregators : ∀ w < W, getAggregators (A w).aggregators = .ok aggregators)
    (hqueue : ∀ w < W, getQueueConnections kind ⟨T, w, W⟩ (masterCreds w) args readType capacity
      (nConsumers w) (A w) (N w) (M w) (s w) = (.queue (readers w), s' w)) :
    ((List.range W).flatMap fun w => (readers w).map ReaderConnection.partition).Perm
      ((List.range T).map fun p : Nat => (p : Int)) ∧
    (∀ w < W, ∀ r ∈ readers w, ∃ node, aggregators[r.place aggregators.length]? = some node ∧
      (r.creds = node.fillIn (masterCreds w) ∨
        r.creds = masterCreds w ∧ ∃ e, fallbackWarning e r.partition ∈ (s' w).reports)) ∧
    (∀ a < aggregators.length,
      (((List.range W).flatMap readers).countP fun r => r.place aggregators.length == a) =
        T / aggregators.length + if a < T % aggregators.length then 1 else 0) ∧
    (∀ w < W, ∀ r ∈ readers w,
      r.place aggregators.length ≡ w [MOD Nat.gcd W aggregators.length]) ∧
    (Nat.lcm W aggregators.length ≤ T → ∀ w < W, ∀ a < aggregators.length,
      a ≡ w [MOD Nat.gcd W aggregators.length] →
      ∃ r ∈ readers w, r.place aggregators.length = a) := by
  have hpart : ∀ w < W, (readers w).map ReaderConnection.partition = strided w W T :=
    fun w hw => partitions_of_queue (C := ⟨T, w, W⟩) hW rfl (hqueue w hw)
  have hperm : ((List.range W).flatMap fun w => (readers w).map ReaderConnection.partition).Perm
      ((List.range T).map fun p : Nat => (p : Int)) := by
    rw [List.flatMap_congr fun w hw => hpart w (List.mem_range.mp hw)]
    exact strided_workers_perm hW T
  -- a reader of worker `w`
  have hreader : ∀ w < W, ∀ r ∈ readers w, ∃ p : Nat, r.partition = p ∧ p < T ∧ p ≡ w [MOD W] := by
    intro w hw r hr
    have hmem : r.partition ∈ strided w W T := hpart w hw ▸ List.mem_map_of_mem hr
    obtain ⟨p, hp⟩ := Int.eq_ofNat_of_zero_le
      (le_trans (Int.natCast_nonneg w) (le_of_mem_strided hmem))
    rw [hp] at hmem
    exact ⟨p, hp, (mem_strided_iff hw).mp hmem⟩
  refine ⟨hperm, ?_, ?_, ?_, ?_⟩
  · intro w hw r hr
    obtain ⟨p, hp, hlt, _⟩ := hreader w hw r hr
    have hcreds := creds_of_queue (haggregators w hw) (hqueue w hw) hr
    have hmod : r.partition % 2 ^ 64 = p := by
      unfold intMax at hrange
      omega
    have hplace : (r.partition % 2 ^ 64).toNat % aggregators.length =
        r.place aggregators.length := by
      rw [ReaderConnection.place, hmod, hp]
    have hnode := List.getElem?_eq_getElem
      (Nat.mod_lt r.partition.toNat (List.length_pos_of_ne_nil hne))
    rw [fillCredentials, hplace, ReaderConnection.place, hnode] at hcreds
    exact ⟨_, hnode, hcreds⟩
  · intro a ha
    have hcount := hperm.countP_eq fun p => p.toNat % aggregators.length == a
    rw [List.countP_map, ← List.map_flatMap, List.countP_map] at hcount
    exact hcount.trans (countP_remainder ha T)
  · intro w hw r hr
    obtain ⟨p, hp, _, hmod⟩ := hreader w hw r hr
    have hplace : r.place aggregators.length ≡ p [MOD aggregators.length] := by
      rw [ReaderConnection.place, hp, Int.toNat_natCast]
      exact Nat.mod_modEq p _
    exact (hplace.of_dvd (Nat.gcd_dvd_right W _)).trans (hmod.of_dvd (Nat.gcd_dvd_left W _))
  · intro hT w hw a ha hmod
    -- a partition of the worker whose turn the aggregator is
    have hp := Nat.chineseRemainder'_lt_lcm hmod.symm (by omega) (by omega)
    obtain ⟨hpw, hpa⟩ := (Nat.chineseRemainder' hmod.symm).2
    generalize (Nat.chineseRemainder' hmod.symm : Nat) = p at hp hpw hpa
    have hmem := (mem_strided_iff hw).mpr ⟨lt_of_lt_of_le hp hT, hpw⟩
    rw [← hpart w hw] at hmem
    obtain ⟨r, hr, hrp⟩ := List.mem_map.mp hmem
    refine ⟨r, hr, ?_⟩
    rw [ReaderConnection.place, hrp, Int.toNat_natCast, hpa, Nat.mod_eq_of_lt ha]

end Cluster

/-! ### Two workers -/

/-- The first of two aggregators refuses connections. -/
def twoAggregators : ClientAnswers where
  rowSchema := .ok idSchema
  aggregators := .ok [[some "CA", some "node1", some "3306"], [some "CA", some "localhost", some "3307"]]
  tableKeys := .ok ⟨∅, []⟩

def oneNodeDown : Network := fun _ creds =>
  if creds.host = "node1" then some ⟨2003, "Can't connect"⟩ else none

def twoWorkersQueue (w : Nat) : Created (List ReaderConnection) × ClientState :=
  getQueueConnections .streaming ⟨3, w, 2⟩ ⟨"master", 3306, "db", "root", "", none⟩
    idArgs .resultTable 1 1 twoAggregators oneNodeDown
    (fun _ => false) .create

def twoWorkersReaders (w : Nat) : List ReaderConnection :=
  match (twoWorkersQueue w).1 with
  | .queue readers => readers
  | _ => []

/-- Two of the three readers have their turn at the node that is down. -/
theorem readers_placed_twoWorkers :
    (((List.range 2).flatMap twoWorkersReaders).countP fun r => r.place 2 == 0) = 2 ∧
      ∀ r ∈ twoWorkersReaders 1, r.place 2 ≡ 1 [MOD 2] := by
  have hqueue : ∀ w < 2, twoWorkersQueue w =
      (.queue (twoWorkersReaders w), (twoWorkersQueue w).2) := by
    intro w hw
    refine Prod.ext ?_ rfl
    revert w
    decide +kernel
  have hplaced := readers_placed (by decide) (by decide)
    (List.cons_ne_nil (⟨"node1", 3306, "", 0⟩ : AggregatorNode) [⟨"localhost", 3307, "", 0⟩])
    (fun _ _ => by decide +kernel) hqueue
  exact ⟨hplaced.2.2.1 0 (by decide), hplaced.2.2.2.1 1 (by decide)⟩

/-! ## Random reads -/

/-- `S2Connection::ConnectWithRetryMA` -/
def connectWithRetryMA (N : Network) (creds masterCreds : Credentials) (s : ClientState) :
    Except S2ClientError Credentials × ClientState :=
  match s.connect N creds with
  | (none, s) => (.ok creds, s)
  | (some _, s) =>
    match s.connect N masterCreds with
    | (none, s) => (.ok masterCreds, s)
    | (some e, s) => (.error e, s)

/-- What `GetSingleRow` and `GetMultipleRows` use of the queue to connect. A
thread that passes the check of its number has a place in `m_consumers`. -/
structure RandomReads where
  aggregators : List AggregatorNode
  masterCreds : Credentials
  consumerThreadsNum : Int
  /-- the length of `m_consumers` -/
  consumers : Nat
  inRange : ∀ threadId : Nat, (threadId : Int) < consumerThreadsNum → threadId < consumers

/-- `m_consumers`: where the connections of the threads go. -/
abbrev ConsumerConns := Nat → Option Credentials

namespace RandomReads

/-- The end of `CreateChunkQueue`. Without readers it returns before it sets
`m_consumer_threads_num` and fills `m_consumers`. -/
def create (aggregators : List AggregatorNode) (masterCreds : Credentials) (nConsumers : Int)
    (readers : List ReaderConnection) (hreaders : readers ≠ []) : RandomReads where
  aggregators := aggregators
  masterCreds := masterCreds
  consumerThreadsNum := nConsumers
  consumers := if readers = [] then 0 else nConsumers.toNat
  inRange := by
    intro threadId h
    rw [if_neg hreaders]
    exact Int.lt_toNat.mpr h

/-- The beginning of both functions: the error with which they return, or the
connection of the thread. -/
def connectThread (Q : RandomReads) (N : Network) (threadId : Nat) (partitionId : UInt32)
    (conns : ConsumerConns) (s : ClientState) :
    Except S2ClientError Credentials × ConsumerConns × ClientState :=
  if (threadId : Int) ≥ Q.consumerThreadsNum then
    (.error ⟨s2cErrorInvArg, "threadId " ++ toString threadId ++ " is too large"⟩, conns, s)
  else
    match conns threadId with
    | some creds => (.ok creds, conns, s)
    | none =>
      match connectWithRetryMA N
        (fillCredentials Q.aggregators (Int.bmod partitionId.toNat (2 ^ 32)) Q.masterCreds)
        Q.masterCreds s with
      | (.error e, s) => (.error e, conns, s)
      | (.ok creds, s) => (.ok creds, Function.update conns threadId (some creds), s)

/-- Requests of any threads, in the order in which they connect. -/
def connectAll (Q : RandomReads) (N : Network) :
    List (Nat × UInt32) → ConsumerConns → ClientState → ConsumerConns × ClientState
  | [], conns, s => (conns, s)
  | (threadId, partitionId) :: requests, conns, s =>
    let result := Q.connectThread N threadId partitionId conns s
    Q.connectAll N requests result.2.1 result.2.2

end RandomReads

/-- The connections that have been made. -/
def ClientState.opened (s : ClientState) : Nat := s.attempts.countP fun a => a.error == none

/-- The threads below `n` that have a connection. -/
def connected (n : Nat) (conns : ConsumerConns) : Nat :=
  (List.range n).countP fun t => (conns t).isSome

section Requests

variable {conns : ConsumerConns}

theorem connected_update {n t : Nat} {creds : Credentials} (ht : t < n) (hnone : conns t = none) :
    connected n (Function.update conns t (some creds)) = connected n conns + 1 := by
  have hone := Monitors.sum_map_of_one (List.nodup_range (n := n)) (List.mem_range.mpr ht)
    (f := fun i => (conns i).isSome.toNat)
    (g := fun i => (Function.update conns t (some creds) i).isSome.toNat)
    (fun i hi => by rw [Function.update_of_ne hi])
  rw [Function.update_self, hnone] at hone
  have hsum : ∀ f : ConsumerConns, connected n f =
      ((List.range n).map fun i => (f i).isSome.toNat).sum := by
    intro f
    rw [connected]
    induction List.range n with
    | nil => rfl
    | cons i l ih =>
      rw [List.countP_cons, List.map_cons, List.sum_cons, ih]
      cases (f i).isSome <;> simp [Nat.add_comm]
  rw [hsum, hsum]
  exact hone

theorem connected_le (n : Nat) (conns : ConsumerConns) : connected n conns ≤ n := by
  have hle := List.countP_le_length (p := fun t => (conns t).isSome) (l := List.range n)
  rwa [List.length_range] at hle

/-- What a request does: nothing, when its thread has a connection or may not
have one; two calls of `Connect` that fail; or the connection of its thread. -/
theorem RandomReads.connectThread_cases (Q : RandomReads) (N : Network) (t : Nat) (p : UInt32)
    (conns : ConsumerConns) (s : ClientState) :
    (Q.connectThread N t p conns s).2 = (conns, s) ∨
    (∃ creds creds' e e', (Q.connectThread N t p conns s).2 =
      (conns, { s with attempts := s.attempts ++ [⟨creds, some e⟩, ⟨creds', some e'⟩] })) ∨
    ((t : Int) < Q.consumerThreadsNum ∧ conns t = none ∧ ∃ creds attempts,
      (creds = fillCredentials Q.aggregators (Int.bmod p.toNat (2 ^ 32)) Q.masterCreds ∨
        creds = Q.masterCreds) ∧
      attempts.countP (fun a => a.error == none) = 1 ∧ attempts.length ≤ 2 ∧
      (Q.connectThread N t p conns s).2 =
        (Function.update conns t (some creds), { s with attempts := s.attempts ++ attempts })) := by
  unfold connectThread
  split
  · exact Or.inl rfl
  · rename_i hlt
    cases hconn : conns t with
    | some creds => exact Or.inl rfl
    | none =>
      dsimp only
      right
      generalize fillCredentials Q.aggregators (Int.bmod p.toNat (2 ^ 32)) Q.masterCreds = creds
      unfold connectWithRetryMA
      cases hfirst : N s.attempts.length creds with
      | none =>
        refine Or.inr ⟨by omega, rfl, creds, [⟨creds, none⟩], Or.inl rfl, rfl, Nat.le_succ 1, ?_⟩
        simp [ClientState.connect, hfirst]
      | some e =>
        cases hsecond : N (s.attempts.length + 1) Q.masterCreds with
        | none =>
          refine Or.inr ⟨by omega, rfl, Q.masterCreds,
            [⟨creds, some e⟩, ⟨Q.masterCreds, none⟩], Or.inr rfl, rfl, Nat.le_refl 2, ?_⟩
          simp [ClientState.connect, hfirst, hsecond]
        | some e' =>
          refine Or.inl ⟨creds, Q.masterCreds, e, e', ?_⟩
          simp [ClientState.connect, hfirst, hsecond]

/-- What requests leave: a connection for each thread that was given one, and
the others as they were. -/
structure Connects (Q : RandomReads) (requests : List (Nat × UInt32)) (conns : ConsumerConns)
    (s : ClientState) (result : ConsumerConns × ClientState) : Prop where
  opened : result.2.opened + connected Q.consumerThreadsNum.toNat conns =
    s.opened + connected Q.consumerThreadsNum.toNat result.1
  attempts : result.2.attempts.length ≤ s.attempts.length + 2 * requests.length
  kept : ∀ t creds, conns t = some creds → result.1 t = some creds
  made : ∀ t creds, result.1 t = some creds → conns t = some creds ∨
    t < Q.consumerThreadsNum.toNat ∧ ∃ p, (t, p) ∈ requests ∧
      (creds = fillCredentials Q.aggregators (Int.bmod p.toNat (2 ^ 32)) Q.masterCreds ∨
        creds = Q.masterCreds)

theorem RandomReads.connects_thread (Q : RandomReads) (N : Network) (t : Nat) (p : UInt32)
    (conns : ConsumerConns) (s : ClientState) :
    Connects Q [(t, p)] conns s (Q.connectThread N t p conns s).2 := by
  rcases Q.connectThread_cases N t p conns s with
    heq | ⟨creds, creds', e, e', heq⟩ | ⟨hlt, hnone, creds, attempts, hcreds, hone, htwo, heq⟩
  · rw [heq]
    exact ⟨rfl, Nat.le_add_right _ _, fun _ _ h => h, fun _ _ h => Or.inl h⟩
  · rw [heq]
    refine ⟨?_, ?_, fun _ _ h => h, fun _ _ h => Or.inl h⟩
    · simp [ClientState.opened, List.countP_append]
    · simp
  · rw [heq]
    have ht : t < Q.consumerThreadsNum.toNat := by omega
    refine ⟨?_, ?_, ?_, ?_⟩
    · simp only [ClientState.opened, List.countP_append, hone, connected_update ht hnone]
      omega
    · simp only [List.length_append, List.length_singleton]
      omega
    · intro u c hu
      have hne : u ≠ t := by
        rintro rfl
        rw [hnone] at hu
        cases hu
      exact (Function.update_of_ne hne _ _).trans hu
    · intro u c hu
      dsimp only at hu
      by_cases hne : u = t
      · subst hne
        rw [Function.update_self] at hu
        obtain rfl := Option.some.inj hu
        exact Or.inr ⟨ht, p, List.mem_singleton.mpr rfl, hcreds⟩
      · rw [Function.update_of_ne hne] at hu
        exact Or.inl hu

/-- **Any sequence of requests.** -/
theorem RandomReads.connects_all (Q : RandomReads) (N : Network) (requests : List (Nat × UInt32))
    (conns : ConsumerConns) (s : ClientState) :
    Connects Q requests conns s (Q.connectAll N requests conns s) := by
  induction requests generalizing conns s with
  | nil => exact ⟨rfl, Nat.le_refl _, fun _ _ h => h, fun _ _ h => Or.inl h⟩
  | cons request requests ih =>
    obtain ⟨t, p⟩ := request
    have hone := Q.connects_thread N t p conns s
    have hrest := ih (Q.connectThread N t p conns s).2.1 (Q.connectThread N t p conns s).2.2
    rw [connectAll]
    refine ⟨?_, ?_, fun u c hu => hrest.kept u c (hone.kept u c hu), fun u c hu => ?_⟩
    · have hopened := hrest.opened
      have hopened' := hone.opened
      omega
    · have hattempts := hrest.attempts
      have hattempts' := hone.attempts
      simp only [List.length_cons, List.length_nil] at hattempts' ⊢
      omega
    · rcases hrest.made u c hu with hold | ⟨hlt, q, hq, hcreds⟩
      · rcases hone.made u c hold with hold | ⟨hlt, q, hq, hcreds⟩
        · exact Or.inl hold
        · exact Or.inr ⟨hlt, q, List.mem_cons.mpr (Or.inl (List.mem_singleton.mp hq)), hcreds⟩
      · exact Or.inr ⟨hlt, q, List.mem_cons_of_mem _ hq, hcreds⟩

theorem RandomReads.connectAll_append (Q : RandomReads) (N : Network)
    (requests requests' : List (Nat × UInt32)) (conns : ConsumerConns) (s : ClientState) :
    Q.connectAll N (requests ++ requests') conns s =
      Q.connectAll N requests' (Q.connectAll N requests conns s).1
        (Q.connectAll N requests conns s).2 := by
  induction requests generalizing conns s with
  | nil => rfl
  | cons request requests ih =>
    obtain ⟨t, p⟩ := request
    rw [List.cons_append, connectAll, connectAll, ih]

end Requests

section Bounded

variable {client : S2Client} {masterCreds : Credentials} {args : ReadArgs}
  {readType : ParallelReadType} {capacity : Nat} {nConsumers : Int} {A : ClientAnswers}
  {N : Network} {M : Memory} {s s' : ClientState} {aggregators : List AggregatorNode}
  {readers : List ReaderConnection}

/-- Each turn of the loop makes one connection with at most two calls. -/
theorem opened_afterTurns (aggregators : List AggregatorNode) (masterCreds : Credentials)
    (turns : List Turn) (s : ClientState) :
    (s.afterTurns aggregators masterCreds turns).opened = s.opened + turns.length ∧
      (s.afterTurns aggregators masterCreds turns).attempts.length ≤
        s.attempts.length + 2 * turns.length := by
  induction turns generalizing s with
  | nil => simp
  | cons t turns ih =>
    obtain ⟨hopened, hattempts⟩ := ih (s.afterTurns aggregators masterCreds [t])
    rw [ClientState.afterTurns_cons] at hopened hattempts
    have hone : (s.afterTurns aggregators masterCreds [t]).opened = s.opened + 1 ∧
        (s.afterTurns aggregators masterCreds [t]).attempts.length ≤ s.attempts.length + 2 := by
      cases hrefused : t.refused <;>
        simp [ClientState.afterTurns, ClientState.opened, Turn.attempts, hrefused,
          List.countP_append]
    rw [List.length_cons]
    omega

/-- **The connections of a multi-pass queue** with readers. In any sequence of
random reads the queue has a connection for each partition of the worker and one for each
thread that has been given one, which it keeps. A reader is connected to the
aggregator of its partition or to the master, a thread to the aggregator of a
partition that it asked for or to the master. -/
theorem connections_bounded (requests more : List (Nat × UInt32)) (hreaders : readers ≠ [])
    (haggregators : getAggregators A.aggregators = .ok aggregators)
    (hqueue : getQueueConnections .multiPass client masterCreds args readType capacity nConsumers A N
      M s = (.queue readers, s')) :
    let Q := RandomReads.create aggregators masterCreds nConsumers readers hreaders
    let threads := Q.consumerThreadsNum.toNat
    let result := Q.connectAll N requests (fun _ => none) s'
    result.2.opened = s.opened + readers.length + connected threads result.1 ∧
    connected threads result.1 ≤ threads ∧
    result.2.attempts.length ≤ s.attempts.length + 2 * (readers.length + requests.length) ∧
    (∀ r ∈ readers, r.creds = fillCredentials aggregators r.partition masterCreds ∨
      r.creds = masterCreds) ∧
    (∀ t creds, result.1 t = some creds → t < threads ∧ ∃ p, (t, p) ∈ requests ∧
      (creds = fillCredentials aggregators (Int.bmod p.toNat (2 ^ 32)) masterCreds ∨
        creds = masterCreds)) ∧
    ∀ t creds, result.1 t = some creds →
      (Q.connectAll N (requests ++ more) (fun _ => none) s').1 t = some creds := by
  intro Q threads result
  obtain ⟨aggregators', _, _, _, turns, haggregators', -, -, -, rfl, -, rfl⟩ :=
    readers_of_queue hqueue
  obtain ⟨hopened, hattempts⟩ :=
    opened_afterTurns aggregators' masterCreds turns (s.setError .none false)
  have hconnects := Q.connects_all N requests (fun _ => none)
    ((s.setError .none false).afterTurns aggregators' masterCreds turns)
  have hzero : connected threads (fun _ => none) = 0 := by simp [connected]
  refine ⟨?_, connected_le _ _, ?_, fun r hr => ?_, ?_, ?_⟩
  · have hsum := hconnects.opened
    rw [hzero, hopened] at hsum
    rw [List.length_map]
    exact hsum
  · rw [List.length_map, Nat.mul_add, ← Nat.add_assoc]
    exact le_trans hconnects.attempts (Nat.add_le_add_right hattempts _)
  · exact (creds_of_queue haggregators hqueue hr).imp_right And.left
  · intro t creds ht
    rcases hconnects.made t creds ht with hnone | hmade
    · cases hnone
    · exact hmade
  · intro t creds ht
    rw [Q.connectAll_append]
    exact (Q.connects_all N more _ _).kept t creds ht

end Bounded

/-! ### Two threads -/

def randomQueue : Created (List ReaderConnection) × ClientState :=
  getQueueConnections .multiPass ⟨3, 1, 2⟩ ⟨"master", 3306, "db", "root", "", none⟩
    idArgs .columnStoreTable 1 2 twoAggregators
    oneNodeDown (fun _ => false) .create

def randomReaders : List ReaderConnection :=
  match randomQueue.1 with
  | .queue readers => readers
  | _ => []

theorem randomReaders_ne_nil : randomReaders ≠ [] := by decide +kernel

def randomReads : RandomReads :=
  RandomReads.create [⟨"node1", 3306, "", 0⟩, ⟨"localhost", 3307, "", 0⟩]
    ⟨"master", 3306, "db", "root", "", none⟩ 2 randomReaders randomReaders_ne_nil

def randomResult : ConsumerConns × ClientState :=
  randomReads.connectAll oneNodeDown [(0, 0), (1, 1), (0, 2)] (fun _ => none) randomQueue.2

/-- One reader and the two threads that asked. -/
theorem connections_bounded_twoThreads :
    randomResult.2.opened = ClientState.create.opened + randomReaders.length +
        connected 2 randomResult.1 ∧ connected 2 randomResult.1 = 2 := by
  have hqueue : randomQueue = (.queue randomReaders, randomQueue.2) :=
    Prod.ext (by decide +kernel) rfl
  have haggregators : getAggregators twoAggregators.aggregators = .ok randomReads.aggregators := by
    decide +kernel
  have hopened := (connections_bounded [(0, 0), (1, 1), (0, 2)] [] randomReaders_ne_nil
    haggregators hqueue).1
  exact ⟨hopened, by decide +kernel⟩

end SasLibclient
