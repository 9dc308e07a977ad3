/-!
# Expiring cache

Values under text keys, each with a time at which it stops being live. The clock is an
argument of every operation that reads it. An entry that has expired counts in the size
until it is read or purged.
-/
namespace SqlBuilder

structure Cache.Entry (α : Type) where
  value : α
  /-- The first moment at which the entry is no longer live; never when absent. -/
  expires : Option Nat

def Cache.Entry.isLive (e : Cache.Entry α) (now : Nat) : Bool :=
  match e.expires with
  | none => true
  | some moment => now < moment

structure Cache (α : Type) where
  entries : List (String × Cache.Entry α)

namespace Cache

def empty : Cache α := ⟨[]⟩

def size (c : Cache α) : Nat := c.entries.length

def lookup (c : Cache α) (key : String) : Option (Entry α) := c.entries.lookup key

def remove (c : Cache α) (key : String) : Cache α := ⟨c.entries.filter fun p => p.1 ≠ key⟩

/-- Stores a value for `ttl`, or for good; an earlier entry under the key is gone. -/
def set (c : Cache α) (key : String) (value : α) (ttl : Option Nat) (now : Nat) : Cache α :=
  ⟨(key, ⟨value, ttl.map (now + ·)⟩) :: (c.remove key).entries⟩

/-- The live value under a key; reading an expired one removes it. -/
def get (c : Cache α) (key : String) (now : Nat) : Option α × Cache α :=
  match c.lookup key with
  | none => (none, c)
  | some e => if e.isLive now then (some e.value, c) else (none, c.remove key)

def purge (c : Cache α) (now : Nat) : Cache α := ⟨c.entries.filter fun p => p.2.isLive now⟩

end Cache

end SqlBuilder
