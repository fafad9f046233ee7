/-!
# Names of what a session holds

Connections, reads and retry timers are numbered from one in the order in which they are taken up,
and each kind of number is a type of its own. Events that carry an older number are stale.

The numbers are natural numbers, where a program has words of 64 bits. It adds one at a time and
never starts again, so that 2⁶⁴ - 1 of a kind have to be taken up before it runs out of them.
-/

namespace ResumableUpload

/-- One attempt to connect. -/
structure ConnectionId where
  number : Nat
  deriving DecidableEq, Repr, Hashable

/-- One read of a range of the file. -/
structure ReadId where
  number : Nat
  deriving DecidableEq, Repr, Hashable

/-- One armed retry timer. -/
structure RetryToken where
  number : Nat
  deriving DecidableEq, Repr, Hashable

end ResumableUpload
