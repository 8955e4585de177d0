import Mathlib.Data.String.Basic
import Mathlib.Logic.Function.Basic
import SupportApi.Data.Entities
import SupportApi.Lib.Machine
import SupportApi.Lib.SortedSet

/-! `SlidingWindowRateLimiterMiddleware.checkLimit`.  The commands of a pipeline reach
Redis one by one, in order, and those of other connections may fall between them. -/

namespace SupportApi.RateLimit

open Lib

structure RateLimitConfig where
  windowMs : Int
  limit : Nat
  deriving DecidableEq

structure Result where
  allowed : Bool
  remaining : Nat
  retryAfter : Int
  deriving DecidableEq

structure Key where
  set : SortedSet String Time
  expireAt : Option Time

namespace Key

def absent : Key := ⟨.empty, none⟩

/-- What a command that runs at `clock` finds. -/
def foundAt (key : Key) (clock : Time) : Key :=
  match key.expireAt with
  | none => key
  | some deadline => if deadline < clock then absent else key

/-- `ZREMRANGEBYSCORE key -inf bound`; a set without members is removed. -/
def zremrangebyscore (key : Key) (bound : Time) : Key :=
  let set := key.set.removeUpTo bound
  if set.card = 0 then absent else { key with set }

def zcard (key : Key) : Nat := key.set.card

/-- `ZADD key NX score member`. -/
def zadd (key : Key) (score : Time) (member : String) : Key :=
  { key with set := key.set.addNX score member }

def pexpire (key : Key) (clock : Time) (ms : Int) : Key :=
  if key.set.card = 0 ∨ ms ≤ 0 then absent else { key with expireAt := some (clock + ms) }

/-- `ZRANGE key 0 0 WITHSCORES`: the lowest score. -/
def zrange (key : Key) : Option Time := key.set.first?.map fun e => (ofLex e).1

end Key

def requestId (now : Time) (random : String) : String := toString now ++ ":" ++ random

def ceilSeconds (ms : Int) : Int := -(-ms / 1000)

def result (config : RateLimitConfig) (now : Time) (currentCount : Nat) (oldest : Option Time) :
    Result where
  allowed := currentCount < config.limit
  remaining := config.limit - currentCount - 1
  retryAfter :=
    if currentCount < config.limit then 0
    else
      match oldest with
      | none => 0
      | some oldestTs => ceilSeconds (oldestTs + config.windowMs - now)

inductive Call
  | idle
  | started (now : Time) (id : String)
  | evicted (now : Time) (id : String)
  | counted (now : Time) (id : String) (currentCount : Nat)
  | added (now : Time) (id : String) (currentCount : Nat)
  | executed (now : Time) (id : String) (currentCount : Nat)
  | returned (now : Time) (id : String) (currentCount : Nat) (result : Result)
  deriving DecidableEq

abbrev Pid := Nat

/-- One key, the calls on it by all servers, and the clock that these share. -/
structure State where
  clock : Time
  key : Key
  calls : Pid → Call

inductive Action
  | tick (ms : Nat)
  | start (p : Pid) (random : String)
  | zremrangebyscore (p : Pid)
  | zcard (p : Pid)
  | zadd (p : Pid)
  | pexpire (p : Pid)
  | reply (p : Pid)

namespace State

def start (clock : Time) (key : Key) : State := ⟨clock, key, fun _ => .idle⟩

def found (s : State) : Key := s.key.foundAt s.clock

def set (s : State) (p : Pid) (call : Call) : State :=
  { s with calls := Function.update s.calls p call }

def write (s : State) (key : Key) (p : Pid) (call : Call) : State :=
  { s with key, calls := Function.update s.calls p call }

end State

variable (config : RateLimitConfig)

def step (s : State) : Action → Option State
  | .tick ms => some { s with clock := s.clock + ms }
  | .start p random =>
    match s.calls p with
    | .idle => some (s.set p (.started s.clock (requestId s.clock random)))
    | _ => none
  | .zremrangebyscore p =>
    match s.calls p with
    | .started now id =>
      some (s.write (s.found.zremrangebyscore (now - config.windowMs)) p (.evicted now id))
    | _ => none
  | .zcard p =>
    match s.calls p with
    | .evicted now id => some (s.set p (.counted now id s.found.zcard))
    | _ => none
  | .zadd p =>
    match s.calls p with
    | .counted now id currentCount =>
      some (s.write (s.found.zadd now id) p (.added now id currentCount))
    | _ => none
  | .pexpire p =>
    match s.calls p with
    | .added now id currentCount =>
      some (s.write (s.found.pexpire s.clock config.windowMs) p (.executed now id currentCount))
    | _ => none
  -- an allowed call returns without asking for the oldest entry
  | .reply p =>
    match s.calls p with
    | .executed now id currentCount =>
      some (s.set p (.returned now id currentCount
        (result config now currentCount s.found.zrange)))
    | _ => none

def machine : Machine State Action := ⟨step config⟩

end SupportApi.RateLimit
