import Lemmata.Issue

/-!
A cache of results. Entries are kept for each database and label, and an entry counts only while
its fingerprint is the wanted one and it is not too old. Times are in nanoseconds.
-/

set_option autoImplicit false

namespace Lemmata

structure CacheEntry where
  database : String
  label : String
  fingerprint : String
  result : Result
  createdAt : Nat
deriving DecidableEq, Repr

structure Cache where
  entries : List CacheEntry := []
  -- Entries older than this are ignored; zero and less mean no limit.
  maxAge : Int := 0
deriving DecidableEq, Repr

inductive CacheError where
  | missingDatabase
  | missingLabel
  | labelTooLong
deriving DecidableEq, Repr

def CacheError.message : CacheError → String
  | missingDatabase => "bucket name required"
  | missingLabel => "key required"
  | labelTooLong => "key too large"

namespace CacheEntry

def isFor (entry : CacheEntry) (database label : String) : Bool :=
  entry.database == database && entry.label == label

def isExpired (entry : CacheEntry) (maxAge : Int) (now : Nat) : Bool :=
  0 < maxAge && maxAge < (now : Int) - entry.createdAt

end CacheEntry

namespace Cache

def labelLimit : Nat := 32768

def store (cache : Cache) (now : Nat) (database label fingerprint : String) (result : Result) :
    Except CacheError Cache :=
  if database = "" then .error .missingDatabase
  else if label = "" then .error .missingLabel
  else if labelLimit < label.utf8ByteSize then .error .labelTooLong
  else
    let others := cache.entries.filter fun entry => !entry.isFor database label
    .ok { cache with entries := ⟨database, label, fingerprint, result, now⟩ :: others }

def fetch (cache : Cache) (now : Nat) (database label fingerprint : String) : Option Result :=
  match cache.entries.find? fun entry => entry.isFor database label with
  | none => none
  | some entry =>
      if entry.isExpired cache.maxAge now || entry.fingerprint != fingerprint then none
      else some { entry.result with cached := true }

def invalidate (cache : Cache) : Cache := { cache with entries := [] }

-- Closing and opening a cache keeps its entries, but not the age limit.
def reopen (cache : Cache) : Cache := { cache with maxAge := 0 }

end Cache

end Lemmata
