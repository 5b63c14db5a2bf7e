import Mathlib.Data.Fintype.Card
import Mathlib.Data.Finset.Card
import Mathlib.Logic.Function.Basic

namespace ExFatSlim

/-- `REPLY_SLOTS`. -/
def replySlots : Nat := 4

/-- The capacity of the channel `REQ`. -/
def reqCapacity : Nat := 8

/-- `claim_slot_locked`: the slot and the new bitmap. The last line is the
fallback, for a bitmap that has no slot left. -/
def claimSlotLocked (bitmap : BitVec 32) : Nat × BitVec 32 :=
  match (List.range replySlots).find? fun i => bitmap &&& (1#32 <<< i) == 0#32 with
  | some i => (i, bitmap ||| (1#32 <<< i))
  | none => (0, bitmap)

/-- The loop of `claim_slot_locked` ends without a slot. -/
def claimFallsBack (bitmap : BitVec 32) : Bool :=
  (List.range replySlots).all fun i => !(bitmap &&& (1#32 <<< i) == 0#32)

def releaseSlotLocked (bitmap : BitVec 32) (slot : Nat) : BitVec 32 :=
  bitmap &&& ~~~(1#32 <<< slot)

structure ReplyToken where
  slot : Nat
  seq : BitVec 32
  deriving DecidableEq

/-- `ReplySignal`. The client whose request it answers is kept beside it; no
step reads that. -/
structure ReplySignal (ι Resp : Type) where
  seq : BitVec 32
  resp : Resp
  owner : ι
  deriving DecidableEq

/-- `Req`, with the client that sent it. -/
structure Req (ι Op : Type) where
  op : Op
  reply : Option ReplyToken
  owner : ι
  deriving DecidableEq

/-- Where a client task is between two awaits of a call: in `ReplyPool::acquire`
up to `sending`, in `ReplyPool::wait` from `waiting` on. -/
inductive Client (ι Resp : Type) where
  | idle
  /-- The guard that `FREE_SLOTS.acquire(1)` returns is alive. -/
  | guarded
  /-- The guard is dropped, at the end of the statement that made it. -/
  | admitted
  | claimed (slot : Nat)
  | sending (token : ReplyToken)
  | waiting (token : ReplyToken)
  /-- The loop of `wait` has seen its own sequence number. -/
  | matched (token : ReplyToken) (signal : ReplySignal ι Resp)
  /-- The slot is released, the permit is not yet. -/
  | released (signal : ReplySignal ι Resp)
  deriving DecidableEq

/-- The slot that a client has claimed and not released. -/
def Client.slot {ι Resp : Type} : Client ι Resp → Option Nat
  | .claimed slot => some slot
  | .sending token | .waiting token | .matched token _ => some token.slot
  | _ => none

/-- The statics of the reply pool, the request channel, the request that the
actor is working on and the client tasks. -/
structure Pool (ι Op Resp : Type) where
  permits : Nat := replySlots
  bitmap : BitVec 32 := 0
  seq : BitVec 32 := 1
  signals : Nat → Option (ReplySignal ι Resp) := fun _ => none
  req : List (Req ι Op) := []
  actor : Option (Req ι Op) := none
  client : ι → Client ι Resp := fun _ => .idle
  /-- How often `claim_slot_locked` ran into its fallback. -/
  fallbacks : Nat := 0

/-- The steps of the tasks. `post` is the message that dropping a handle
sends, which asks for no reply; the response of `complete` is whatever
`handle_req` came to. -/
inductive PoolEvent (ι Op Resp : Type) where
  | acquire (c : ι)
  | unguard (c : ι)
  | claim (c : ι)
  | number (c : ι)
  | send (c : ι) (op : Op)
  | post (c : ι) (op : Op)
  | receive
  | complete (resp : Resp)
  | wait (c : ι)
  | release (c : ι)
  | giveBack (c : ι)

namespace Pool

variable {ι Op Resp : Type} [DecidableEq ι]

def become (s : Pool ι Op Resp) (c : ι) (x : Client ι Resp) : Pool ι Op Resp :=
  { s with client := Function.update s.client c x }

/-- `REPLY_SIGNALS[slot]` gets a value, over the one it may hold, or is emptied. -/
def signal (s : Pool ι Op Resp) (slot : Nat) (x : Option (ReplySignal ι Resp)) : Pool ι Op Resp :=
  { s with signals := Function.update s.signals slot x }

/-- `ReplyPool::complete`. -/
def complete (s : Pool ι Op Resp) (owner : ι) (token : ReplyToken) (resp : Resp) : Pool ι Op Resp :=
  s.signal token.slot (some ⟨token.seq, resp, owner⟩)

/-- One step of one task, if that task can take it. -/
def step (s : Pool ι Op Resp) : PoolEvent ι Op Resp → Option (Pool ι Op Resp)
  | .acquire c =>
    match s.client c with
    | .idle => if 0 < s.permits then some { s.become c .guarded with permits := s.permits - 1 } else none
    | _ => none
  | .unguard c =>
    match s.client c with
    | .guarded => some { s.become c .admitted with permits := s.permits + 1 }
    | _ => none
  | .claim c =>
    match s.client c with
    | .admitted =>
      let (slot, bitmap) := claimSlotLocked s.bitmap
      some { s.become c (.claimed slot) with
        bitmap := bitmap, fallbacks := s.fallbacks + (claimFallsBack s.bitmap).toNat }
    | _ => none
  | .number c =>
    match s.client c with
    | .claimed slot => some { s.become c (.sending ⟨slot, s.seq⟩) with seq := s.seq + 1 }
    | _ => none
  | .send c op =>
    match s.client c with
    | .sending token =>
      if s.req.length < reqCapacity then
        some { s.become c (.waiting token) with req := s.req ++ [⟨op, some token, c⟩] }
      else none
    | _ => none
  | .post c op =>
    if s.req.length < reqCapacity then some { s with req := s.req ++ [⟨op, none, c⟩] } else none
  | .receive =>
    match s.actor, s.req with
    | none, r :: rest => some { s with actor := some r, req := rest }
    | _, _ => none
  | .complete resp =>
    match s.actor with
    | some ⟨_, some token, owner⟩ => some { s.complete owner token resp with actor := none }
    | some ⟨_, none, _⟩ => some { s with actor := none }
    | none => none
  | .wait c =>
    match s.client c with
    | .waiting token =>
      match s.signals token.slot with
      | some signal =>
        if signal.seq = token.seq then some ((s.signal token.slot none).become c (.matched token signal))
        else some (s.signal token.slot none)
      | none => none
    | _ => none
  | .release c =>
    match s.client c with
    | .matched token signal =>
      some { s.become c (.released signal) with bitmap := releaseSlotLocked s.bitmap token.slot }
    | _ => none
  | .giveBack c =>
    match s.client c with
    | .released _ => some { s.become c .idle with permits := s.permits + 1 }
    | _ => none

/-- The steps of a schedule, one after the other. -/
def run (s : Pool ι Op Resp) (events : List (PoolEvent ι Op Resp)) : Option (Pool ι Op Resp) :=
  events.foldlM step s

/-- The requests that the actor has not answered, the one at work first. -/
def pending (s : Pool ι Op Resp) : List (Req ι Op) :=
  s.actor.toList ++ s.req

/-- How many tokens are outstanding. -/
def outstanding [Fintype ι] (s : Pool ι Op Resp) : Nat :=
  (Finset.univ.filter fun c => (s.client c).slot.isSome).card

/-- How many slot bits are set. -/
def slotsTaken (s : Pool ι Op Resp) : Nat :=
  ((Finset.range replySlots).filter fun i => s.bitmap.getLsbD i).card

end Pool

end ExFatSlim
