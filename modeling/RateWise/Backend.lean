import RateWise.Database
import RateWise.Json

set_option autoImplicit false

namespace RateWise

open Interleave (Prog)
open ReadCommitted (Call)

inductive JwtPurpose where
  | accountVerification
  | passwordReset
  | accountDeletion
  | signOutAll
deriving DecidableEq, Repr

-- The claims that TokensService and the JWT library set, each of which a
-- foreign token may lack, and the other properties of the object.
structure JwtPayload where
  purpose : Option JwtPurpose
  jti : Option Text
  iat : Option Int
  exp : Option Int
  custom : List (String × Json.Value)
deriving DecidableEq

-- Signing is symbolic: a string verifies under a secret iff it was signed
-- with that secret.
inductive Token where
  | signed (secret : Text) (payload : JwtPayload)
  | unsigned (text : Text)
deriving DecidableEq

structure Email where
  recipient : Text
  token : Token
deriving DecidableEq

structure RedisEntry where
  value : Text
  expiresAt : Option Int
deriving DecidableEq

-- The Redis databases (their keys have distinct prefixes), the clock in
-- milliseconds and the emails that have been added to the queue. A job leaves
-- the queue when it is done, and stays in this list.
structure Redis where
  now : Int
  strings : Text → Option RedisEntry
  sets : Text → List Text
  addedEmails : List Email

def Redis.empty : Redis := ⟨0, fun _ => none, fun _ => [], []⟩

inductive RedisCmd where
  | now
  | get (key : Text)
  | set (key value : Text) (ex : Option Int)
  | del (key : Text)
  | sMembers (key : Text)
  | setRem (key member : Text)
  | setIsMember (key member : Text)
  | setSize (key : Text)
  | multiStoreSetAdd (key value set member : Text)
  | sendEmail (email : Email)
deriving DecidableEq

@[reducible] def RedisCmd.Reply : RedisCmd → Type
  | .now => Int
  | .get _ => Option Text
  | .del _ => Bool
  | .sMembers _ => List Text
  | .setIsMember _ _ => Bool
  | .setSize _ => Nat
  | _ => Unit

namespace Redis

def live (store : Redis) (key : Text) : Option RedisEntry :=
  (store.strings key).filter fun entry => match entry.expiresAt with
    | some time => decide (store.now < time)
    | none => true

-- EX n keeps the key for n seconds and is an error unless n is positive.
def exec (store : Redis) : (c : RedisCmd) → Except Fault (c.Reply × Redis)
  | .now => .ok (store.now, store)
  | .get key => .ok ((store.live key).map RedisEntry.value, store)
  | .set key value none =>
      .ok ((), { store with strings := Function.update store.strings key (some ⟨value, none⟩) })
  | .set key value (some seconds) =>
      if 0 < seconds then
        .ok ((), { store with
          strings := Function.update store.strings key (some ⟨value, some (store.now + seconds * 1000)⟩) })
      else .error .unavailable
  | .del key => .ok ((store.live key).isSome,
      { store with
        strings := Function.update store.strings key none
        sets := Function.update store.sets key [] })
  | .sMembers key => .ok (store.sets key, store)
  | .setRem key member => .ok ((), { store with sets := Function.update store.sets key ((store.sets key).erase member) })
  | .setIsMember key member => .ok ((store.sets key).contains member, store)
  | .setSize key => .ok ((store.sets key).length, store)
  | .multiStoreSetAdd key value set member => .ok ((), { store with
      strings := Function.update store.strings key (some ⟨value, none⟩)
      sets := Function.update store.sets set ((store.sets set).insert member) })
  | .sendEmail email => .ok ((), { store with addedEmails := store.addedEmails ++ [email] })

def commands : ReadCommitted.Commands Fault where
  Store := Redis
  Cmd := RedisCmd
  Reply := RedisCmd.Reply
  Drift := Nat
  exec := Redis.exec
  drift store elapsed := { store with now := store.now + elapsed }

end Redis

abbrev World := ReadCommitted.World schema Redis.commands

abbrev Api := ReadCommitted.interface schema Redis.commands Text

-- hashtext(text) is a fixed function of PostgreSQL into integer.
abbrev engine (hashtext : Text → Int32) := ReadCommitted.engine schema Redis.commands hashtext

inductive Code where
  | unauthorized
  | badRequest
  | notFound
  | conflict
  | forbidden
  | tooManyRequests
  | internalServerError
  | serviceUnavailable
deriving DecidableEq, Repr

inductive Err where
  | gql (code : Code) (message : String)
  | queryFailed (fault : Fault)
  | internalServerError
  | invalidToken (message : String)
  | aggregateError
  | plain (message : String)
deriving DecidableEq, Repr

abbrev Async := Prog Api Err

def sql (s : Sql) : Async s.Answer := @Prog.query Api Err .queryFailed (.sql s)

def redis (c : RedisCmd) : Async c.Reply := @Prog.query Api Err .queryFailed (.cmd c)

def reject {α : Type} (error : Err) : Async α := .throw error

-- if (met) throw error;
def rejectIf (met : Bool) (error : Err) : Async Unit := if met then reject error else pure ()

def transaction {α : Type} (body : Async α) : Async α := Prog.transaction body

end RateWise
