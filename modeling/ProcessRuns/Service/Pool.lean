/-! # The worker pool

Permits to run a job. They are given in the order in which they were asked for; a request for several permits
takes what is free at once and waits for the rest ahead of later requests. Shrinking the pool is such a request,
whose permits are never given back. -/

namespace ProcessRuns

/-- A request that waits for permits. -/
inductive Claim where
  /-- The main loop asks for one permit to hand to a job. -/
  | worker
  /-- The pool shrinks and still has to take `missing` permits. -/
  | withdrawal (missing : Nat)
deriving DecidableEq, Repr

/-- The permits of the workers, and who waits for one. -/
structure Pool where
  /-- The number of workers that was asked for last. -/
  size : Nat
  free : Nat
  /-- The requests that wait, next one first. -/
  line : List Claim := []
  /-- A permit lies ready for the main loop. -/
  granted : Bool := false
  /-- Withdrawals that did not ask yet, oldest first. -/
  orders : List Nat := []
deriving DecidableEq, Repr

namespace Pool

/-- The largest number of permits. -/
def maxPermits : Nat := 2305843009213693951

/-- The largest number of permits that one request takes. -/
def maxRequest : Nat := 4294967295

/-- A pool of a number of workers, of one for each core where the number is zero. -/
def resolve (cores n : Nat) : Nat := min (if n = 0 then cores else n) maxPermits

/-- A pool whose permits are all free. -/
def ofSize (n : Nat) : Pool := { size := n, free := n }

/-- Gives permits to the requests in line; the permits left over, the requests that still wait, and whether the
main loop got one. -/
def distribute : Nat → List Claim → Nat × List Claim × Bool
  | n, [] => (n, [], false)
  | 0, line => (0, line, false)
  | n + 1, .worker :: line =>
    -- There is one main loop, so nobody behind it is granted a permit of this kind.
    let (left, line, _) := distribute n line
    (left, line, true)
  | n + 1, .withdrawal missing :: line =>
    if missing ≤ n + 1 then distribute (n + 1 - missing) line
    else (0, .withdrawal (missing - (n + 1)) :: line, false)

/-- Adds permits; fails, with the permits added, where more are free afterwards than there can be. -/
def add (pool : Pool) (n : Nat) : Bool × Pool :=
  let (left, line, granted) := distribute n pool.line
  let free := pool.free + left
  (left == 0 || free ≤ maxPermits, { pool with free, line, granted := pool.granted || granted })

/-- A job gives its permit back. -/
def release (pool : Pool) : Pool := (pool.add 1).2

/-- The main loop asks for a permit: it gets a free one, or waits in line. -/
def request (pool : Pool) : Bool × Pool :=
  if 0 < pool.free then (true, { pool with free := pool.free - 1 })
  else (false, { pool with line := pool.line ++ [.worker] })

/-- The main loop no longer waits for a permit. -/
def abandon (pool : Pool) : Pool :=
  if pool.granted then { pool with granted := false }.release
  else { pool with line := pool.line.filter fun c => c ≠ .worker }

/-- The oldest withdrawal asks for its permits. -/
def withdraw (pool : Pool) : Pool :=
  match pool.orders with
  | [] => pool
  | n :: orders =>
    if n ≤ pool.free then { pool with orders, free := pool.free - n }
    else { pool with orders, free := 0, line := pool.line ++ [.withdrawal (n - pool.free)] }

/-- Resizes the pool: permits are added at once, and taken away as they come free. Fails where more are free
than there can be. -/
def resize (pool : Pool) (n : Nat) : Bool × Pool :=
  if pool.size < n then { pool with size := n }.add (n - pool.size)
  else if n < pool.size then
    (true, { pool with size := n, orders := pool.orders ++ [min (pool.size - n) maxRequest] })
  else (true, pool)

end Pool

end ProcessRuns
