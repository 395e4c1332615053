import ChatArchive.Session.Report
import ChatArchive.Store.Reading
import ChatArchive.Time.Second

/-!
# Figures over stored sessions

Figures are taken over the sessions that started in a window, the earliest first and no more than a
limit. Which of several sessions with one start come first, and in which order tokens are added,
depends on whether start times are indexed. Concurrency is a sweep over the seconds in which
sessions start and end: every start counts one up and every end one down, the changes of a second
are added, and their running totals are the levels. Times without a second share one bucket, which
comes first.
-/

namespace ChatArchive.Store

open Number Time

/-- Whether a row starts in a window. -/
def startsIn (start finish : Timestamp) (row : Row) : Bool :=
  start.toColumn ≤ row.startTime && row.startTime ≤ finish.toColumn

/-- The sum of integers, if no partial sum leaves the 64-bit range. -/
def boundedSum (values : List Int) : Except DatabaseError Int :=
  values.foldlM (fun total v =>
    let sum := total + v
    if -9223372036854775808 ≤ sum ∧ sum ≤ 9223372036854775807 then .ok sum
    else .error .integerOverflow) 0

/-- The second of a column, if it has one. -/
def secondOf (text : String) : Option Int := secondOfText? text.toList

/-- A change of the number of running sessions, at a second. -/
abbrev Change := Option Int × Int

/-- The changes that a row brings: up at its start and down at its end. -/
def changes (row : Row) : List Change :=
  (secondOf row.startTime, 1) :: row.endTime.toList.map fun e => (secondOf e, -1)

/-- Whether a bucket comes before another: the bucket without a second is the first. -/
def secondLe : Option Int → Option Int → Bool
  | none, _ => true
  | some _, none => false
  | some a, some b => a ≤ b

/-- The seconds at which something changes, in order. -/
def seconds (cs : List Change) : List (Option Int) := (cs.map (·.1)).eraseDups.mergeSort secondLe

/-- The sum of the changes at a second. -/
def deltaAt (cs : List Change) (second : Option Int) : Int :=
  ((cs.filter (·.1 = second)).map (·.2)).foldl (· + ·) 0

/-- Running totals. -/
def runningTotals : (total : Int) → List Int → List Int
  | _, [] => []
  | total, d :: rest => (total + d) :: runningTotals (total + d) rest

/-- The numbers of running sessions after each second at which something changes. -/
def levels (cs : List Change) : List Int := runningTotals 0 ((seconds cs).map (deltaAt cs))

/-- The mean of levels, zero without any. -/
def meanLevel (ls : List Int) : Binary64 :=
  if ls.isEmpty then .zero else (Binary64.ofInt (ls.foldl (· + ·) 0)).div (Binary64.ofNat ls.length)

/-- The largest of integers that are counted from zero. -/
def peak (ls : List Int) : Nat := (ls.foldl max 0).toNat

/-- The largest of integers, zero without any. -/
def largest : List Int → Int
  | [] => 0
  | v :: rest => rest.foldl max v

/-- A total that is never negative. -/
def countOf (i : Int) : UInt64 := UInt64.ofNat i.toNat

/-- Rows by their starts, the earliest first. -/
def startsFirst (a b : Row) : Bool := a.startTime ≤ b.startTime

/-- Rows by their starts, the latest first. -/
def startsLast (a b : Row) : Bool := startsFirst b a

/-- Rows in the order in which those of one start are met on the way from the earliest start to the
latest: as they were inserted, or the other way round along an index, which is walked backwards. -/
def met {α : Type} (indexed : Bool) (rows : List α) : List α :=
  if indexed then rows.reverse else rows

/-- The rows of a window, the earliest first. -/
def windowRows (start finish : Timestamp) (table : Table) : List Row :=
  (met table.hasStartIndex (table.rows.filter (startsIn start finish))).mergeSort startsFirst

/-- The rows of a window that figures are taken over: the earliest, up to a limit. -/
def scanned (start finish : Timestamp) (most : Nat) (table : Table) : List Row :=
  (windowRows start finish table).take most

/-- The rows of a window in the order in which their tokens are added: that of an index over start
times, if there is one. -/
def summedRows (start finish : Timestamp) (table : Table) : List Row :=
  let rows := table.rows.filter (startsIn start finish)
  if table.hasStartIndex then rows.mergeSort startsLast else rows

/-- The tokens of a window. -/
def windowTokens (start finish : Timestamp) (table : Table) : Except DatabaseError Int :=
  boundedSum ((summedRows start finish table).map (·.totalTokens.toInt))

/-- The figures over rows, of which `matched` are in the window altogether. -/
def reportOf (rows : List Row) (truncated : Bool) : Except DatabaseError MetricsReport := do
  let assisted ← boundedSum (rows.map (·.adminAssisted.toInt))
  let tokens ← boundedSum (rows.map (·.totalTokens.toInt))
  let responses := (rows.map (·.avgResponseMs.toInt)).filter (0 < ·)
  let responseSum ← boundedSum responses
  let ls := levels (rows.flatMap changes)
  pure {
    totalSessions := UInt64.ofNat rows.length
    activeSessions := UInt64.ofNat (rows.countP (·.endTime.isNone))
    adminAssistedCount := countOf assisted
    totalTokens := countOf tokens
    avgResponseMs := Int64.ofInt (responseSum / responses.length)
    maxResponseMs := Int64.ofInt (largest (rows.map (·.maxResponseMs.toInt)))
    maxConcurrent := UInt64.ofNat (peak ls)
    avgConcurrent := meanLevel ls
    truncated := truncated }

/-- The figures of a window over at most this many sessions. -/
def windowReport (start finish : Timestamp) (most : Nat) (table : Table) :
    Except DatabaseError MetricsReport :=
  reportOf (scanned start finish most table)
    (most < (table.rows.countP (startsIn start finish)))

/-- The event that tells of figures over a part of the sessions only. -/
def truncationEvent (start finish : Timestamp) (most : UInt32) : Event where
  level := .warning
  message := "metrics scan hit the document cap, figures cover a sample"
  values := [
    ("max_scan", .number most.toNat),
    ("from", .text (String.ofList start.displayText)),
    ("to", .text (String.ofList finish.displayText))]

/-- The figures over the sessions that started in a window. -/
def metrics (start finish : Timestamp) : Action MetricsReport := do
  ofExcept (validateRange start finish)
  let s ← getThe Store
  let most := max s.settings.metrics.maxScan 1
  let figures ← asking "session_metrics" (·.metricsSecs) (windowReport start finish most.toNat)
  if figures.truncated then report (truncationEvent start finish most)
  pure figures

/-- The tokens of the sessions that started in a window. -/
def tokens (start finish : Timestamp) : Action UInt64 := do
  ofExcept (validateRange start finish)
  let total ← asking "token_usage" (·.defaultSecs) (windowTokens start finish)
  pure (countOf total)

end ChatArchive.Store
