import IdentityService.Defs.Effect

namespace IdentityService

open Lib

structure SessionCleaner where
  retention : Time
  batchSize : Nat
deriving DecidableEq

namespace Service

/-- The two statements of a `Delete...Before` method: select a batch of keys, then delete
those that still qualify. -/
def deleteBatch (keys : Except RepositoryError (List String)) (delete : List String → Tx Nat) :
    Prog Nat := do
  let keys ← .expect translateIdentityError keys
  if keys = [] then return 0
  else do .expect translateIdentityError (← within (delete keys))

def deleteExpiredOrRevokedSessionsBefore (before : Time) (limit : Nat) : Prog Nat := do
  deleteBatch (← query (.expiredOrRevokedSessions before limit))
    (fun keys => Repository.deleteSessions keys before)

def deleteExpiredMFAChallengesBefore (before : Time) (limit : Nat) : Prog Nat := do
  deleteBatch (← query (.expiredMFAChallenges before limit))
    (fun keys => Repository.deleteMFAChallenges keys before)

def deleteExpiredPasswordResetChallengesBefore (before : Time) (limit : Nat) : Prog Nat := do
  deleteBatch (← query (.expiredPasswordResetChallenges before limit))
    (fun keys => Repository.deletePasswordResetChallenges keys before)

/-- Delete batches until one is not full.  The fuel bounds the number of batches, as a
cancelled context does. -/
def cleanLoop (delete : Time → Nat → Prog Nat) (age : Time) (batchSize : Nat) : Nat → Prog Unit
  | 0 => .fail .internal
  | fuel + 1 => do
    let now ← now
    let deleted ← delete (now - age) batchSize
    if deleted < batchSize then return ()
    else cleanLoop delete age batchSize fuel

def clean (cleaner : SessionCleaner) (fuel : Nat) : Prog Unit := do
  cleanLoop deleteExpiredOrRevokedSessionsBefore cleaner.retention cleaner.batchSize fuel
  cleanLoop deleteExpiredMFAChallengesBefore (24 * Go.hour) cleaner.batchSize fuel
  cleanLoop deleteExpiredPasswordResetChallengesBefore (24 * Go.hour) cleaner.batchSize fuel

end Service

end IdentityService
