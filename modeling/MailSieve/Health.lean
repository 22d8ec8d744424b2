/-!
The status endpoint: whether the last runs went well, and the code that a request is answered with.
Times are milliseconds since 1970 in 64-bit words.
-/

namespace MailSieve.Health

/-- How far back the last success may lie: two intervals. The product is checked: where it does not fit
into 64 bits, the thread that computes it is broken off. -/
def window (interval : UInt64) : Option UInt64 :=
  if 2 * interval.toNat < UInt64.size then some (2 * interval) else none

/-- The start of a stretch of time up to `now`; there is no time before zero. -/
def since (now length : UInt64) : UInt64 :=
  if length ≤ now then now - length else 0

/-- The last run went well, and did so within the window. -/
def isHealthy (now lastSuccess lastFailure interval : UInt64) : Option Bool :=
  (window interval).map fun length => lastSuccess > lastFailure && lastSuccess > since now length

/-- The code of the answer to a request; only `GET /status` is served. -/
def statusCode (method url : String) (healthy : Bool) : Nat :=
  if method = "GET" ∧ url = "/status" then if healthy then 200 else 500 else 404

end MailSieve.Health
