import OpenPCC.Go.Error
import OpenPCC.Go.Float64
import OpenPCC.Lib.Runs

/-!
# Node health

A router keeps a history of health checks for each node. Histories are merged when routers
exchange their states (`History.merge`) and grow by single checks (`History.insert`).
-/

namespace Router

open Go

/-- `uuid.UUID`. -/
abbrev UUID := BitVec 128

/-- `time.Time` as an instant, in nanoseconds from the zero time. -/
abbrev Time := Int

/-- `health.Check`; the URL is given by its `String()`. -/
structure Check where
  nodeID : UUID
  url : Bytes
  retries : Int
  timestamp : Time
  latency : Int
  httpStatusCode : Int
  errorMessage : Bytes
  deriving DecidableEq, Repr

def Check.isSuccessful (c : Check) : Bool := 200 ≤ c.httpStatusCode ∧ c.httpStatusCode ≤ 299

/-- `Check.Equal`: all fields are compared. -/
def Check.equal (c other : Check) : Bool := c = other

abbrev History := List Check

/-- `sort.Slice` by timestamp. It leaves the order of equal timestamps open; they keep their
order here. -/
def History.sort (h : History) : History := h.insertionSort (·.timestamp ≤ ·.timestamp)

def History.insert (h : History) (hc : Check) : Except Err History :=
  match h with
  | [] => .ok [hc]
  | first :: _ =>
    if first.nodeID ≠ hc.nodeID then
      .error (.new "mismatched node ID: has %s got %s"
        [.int first.nodeID.toNat, .int hc.nodeID.toNat])
    else if h.any (·.equal hc) then .ok h
    else .ok (History.sort (h ++ [hc]))

/-- The loop of `Merge` with `x` next in the receiver and `merge` for what follows `x`. -/
def History.mergeFrom (x : Check) (rest : History) (merge : History → History) :
    History → History
  | [] => x :: rest
  | y :: other =>
    if x.timestamp < y.timestamp then x :: merge (y :: other)
    else if y.timestamp < x.timestamp then y :: History.mergeFrom x rest merge other
    else if x.equal y then x :: merge other
    else x :: y :: merge other

/-- The loop of `Merge`, with the two remainders appended. -/
def History.mergeLoop : History → History → History
  | [], other => other
  | x :: h, other => History.mergeFrom x h (History.mergeLoop h) other

def History.merge (h other : History) : Except Err History :=
  match h, other with
  | h, [] => .ok h
  | [], other => .ok other
  | x :: h, y :: other =>
    if x.nodeID ≠ y.nodeID then
      .error (.new "histories are for different nodes %v and %v"
        [.int x.nodeID.toNat, .int y.nodeID.toNat])
    else .ok (History.mergeLoop (x :: h) (y :: other))

/-- The checks are in chronological order. -/
def History.Ordered (h : History) : Prop := h.Pairwise (·.timestamp ≤ ·.timestamp)

instance (h : History) : Decidable h.Ordered := inferInstanceAs (Decidable (List.Pairwise _ _))

/-- The checks of one moment, in their order. -/
def History.checksAt (h : History) (t : Time) : List Check := Runs.runAt Check.timestamp t h

/-- `After`: the checks from the first one on that is not before `cutoff`. -/
def History.after (h : History) (cutoff : Time) : History :=
  h.drop (search h.length fun i => h[i]?.any (cutoff ≤ ·.timestamp))

structure HistoryStats where
  total : Nat
  successes : Nat
  currentFailureStreak : Nat
  deriving DecidableEq, Repr

def HistoryStats.successRate (s : HistoryStats) : Option Rat :=
  if s.total = 0 then none
  else some (float64 (float64 (s.successes : Int) / float64 (s.total : Int)))

/-- One iteration of `Stats`, backwards from the latest check; `failStreak` is the flag of the
loop. -/
def HistoryStats.count (s : HistoryStats × Bool) (c : Check) : HistoryStats × Bool :=
  let (stats, failStreak) := s
  if c.isSuccessful then ({ stats with successes := stats.successes + 1 }, false)
  else if failStreak then
    ({ stats with currentFailureStreak := stats.currentFailureStreak + 1 }, true)
  else (stats, false)

def History.stats (h : History) : HistoryStats :=
  (h.reverse.foldl HistoryStats.count (⟨h.length, 0, 0⟩, true)).1

/-! ## Performing a check -/

/-- One request of a health check: when it was made, how long it took, and either the error of the
client or the status code of the response, which has three digits, and the error it carries. -/
structure Attempt where
  timestamp : Time
  latency : Int
  response : Bytes ⊕ (Fin 1000 × Bytes)
  deriving DecidableEq, Repr

def Check.attempted (hc : Check) (a : Attempt) : Check :=
  match a.response with
  | .inl err =>
    { hc with
      timestamp := a.timestamp, latency := a.latency, httpStatusCode := 0, errorMessage := err }
  | .inr (code, err) =>
    { hc with
      timestamp := a.timestamp, latency := a.latency, httpStatusCode := code, errorMessage := err }

/-- The loop of `CheckHealth`, which ends with the first success. -/
def Check.attempts (hc : Check) : List Attempt → Check
  | [] => hc
  | a :: rest =>
    let hc := hc.attempted a
    if hc.isSuccessful then hc else hc.attempts rest

/-- `CheckHealth`, with what comes of the requests it may make. -/
def checkHealth (nodeID : UUID) (tgtURL : Bytes) (attempts : List Attempt) : Check :=
  Check.attempts ⟨nodeID, tgtURL, 0, 0, 0, 0, []⟩ attempts

/-! ## The health of a node -/

structure NodeHealth where
  history : History
  deriving DecidableEq, Repr

/-- The new state and whether it changed, for a history that was extended to `newHistory`. -/
def NodeHealth.extend (h : NodeHealth) (newHistory : Except Err History) : NodeHealth × Bool :=
  match newHistory with
  | .error _ => (h, false)
  | .ok newHistory =>
    if newHistory.length = h.history.length then (h, false) else (⟨newHistory⟩, true)

def NodeHealth.mergeHealthcheck (h : NodeHealth) (hc : Check) : NodeHealth × Bool :=
  h.extend (h.history.insert hc)

def NodeHealth.mergeState (h other : NodeHealth) : NodeHealth × Bool :=
  h.extend (h.history.merge other.history)

end Router
