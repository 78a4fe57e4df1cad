import Mathlib.Data.Nat.Notation

/-!
# Buffered channels

A Go channel with its buffer. What has been received is kept, so that everything that was ever sent
on the channel can be told: it is what was received and what is still in the buffer, in this order.

## Main definitions

* `Chan`, with `Chan.offer`, `Chan.close` and `Chan.recv`.
* `Chan.sent` : everything that was sent on the channel.
-/

/-- A buffered channel of capacity `cap`. -/
structure Chan (β : Type*) where
  cap : ℕ
  buf : List β
  closed : Bool
  /-- What has been received so far. -/
  received : List β

namespace Chan

variable {β : Type*}

def make (cap : ℕ) : Chan β := ⟨cap, [], false, []⟩

/-- Everything that was sent. -/
def sent (c : Chan β) : List β := c.received ++ c.buf

/-- The outcome of a send that does not wait. -/
inductive Offer (β : Type*)
  | sent (c : Chan β)
  | full
  /-- The channel is closed. -/
  | panic

/-- `select` with a send and a default. -/
def offer (c : Chan β) (x : β) : Offer β :=
  if c.closed then .panic
  else if c.buf.length < c.cap then .sent { c with buf := c.buf ++ [x] }
  else .full

/-- Close the channel; `none` is the panic when it is closed already. -/
def close (c : Chan β) : Option (Chan β) :=
  if c.closed then none else some { c with closed := true }

/-- Receive a value; it waits for one. -/
def recv (c : Chan β) : Option (Chan β) :=
  match c.buf with
  | [] => none
  | x :: buf => some { c with buf, received := c.received ++ [x] }

end Chan
