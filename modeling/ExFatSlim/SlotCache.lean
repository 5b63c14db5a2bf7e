import ExFatSlim.Error
import ExFatSlim.Lib.Bytes
import Mathlib.Logic.Function.Basic
import Mathlib.Data.List.FinRange
import Mathlib.Data.Fintype.Basic

namespace ExFatSlim

/-- The block device. `script` decides the outcome of the accesses to come:
`none` succeeds, `some garbage` fails and leaves `garbage` in a buffer that was
to be filled; after the script every access succeeds. `writes` records the
sector writes that were carried out, oldest first. -/
structure BlockDevice (size : Nat) where
  blocks : Nat → Block size
  script : List (Option (Block size))
  writes : List (Nat × Block size)

namespace BlockDevice

variable {size : Nat}

/-- Whether the next access succeeds. -/
def succeeds (d : BlockDevice size) : Bool :=
  match d.script with
  | some _ :: _ => false
  | _ => true

/-- What the next access leaves in the buffer of a read of `sector`. -/
def fetched (d : BlockDevice size) (sector : Nat) : Block size :=
  match d.script with
  | some garbage :: _ => garbage
  | _ => d.blocks sector

def afterRead (d : BlockDevice size) : BlockDevice size := { d with script := d.script.tail }

def afterWrite (d : BlockDevice size) (sector : Nat) (b : Block size) : BlockDevice size :=
  if d.succeeds then
    { blocks := Function.update d.blocks sector b
      script := d.script.tail
      writes := d.writes ++ [(sector, b)] }
  else { d with script := d.script.tail }

/-- A device that never fails. -/
def Reliable (d : BlockDevice size) : Prop := d.script = []

end BlockDevice

structure Slot (size : Nat) where
  sectorId : Nat
  isDirty : Bool
  isUsed : Bool
  isValid : Bool
  block : Block size

def Slot.new {size : Nat} : Slot size where
  sectorId := 0
  isDirty := false
  isUsed := false
  isValid := false
  block := fun _ => 0

/-- An access through a cache: a read of a sector, or a change of its content. -/
inductive Access where
  | look (sector : Nat)
  | change (sector : Nat)
  deriving DecidableEq, Repr

def Access.sector : Access → Nat
  | .look s => s
  | .change s => s

/-- The clock cache. `trace` is not in the source: it records which sectors
were asked for, newest first, and nothing reads it back. -/
structure SlotCache (size n : Nat) where
  cache : Fin n → Slot size
  hand : Fin n
  trace : List Access

/-- A cache together with the device it is used on. -/
abbrev CacheIo (size n : Nat) := SlotCache size n × BlockDevice size

/-- `hand += 1`, starting over at `N`. -/
def nextHand {n : Nat} (i : Fin n) : Fin n :=
  if h : i.val + 1 < n then ⟨i.val + 1, h⟩ else ⟨0, i.pos⟩

namespace SlotCache

variable {size n : Nat}

/-- The smallest cache has one slot. -/
instance oneSlot : NeZero 1 := ⟨Nat.one_ne_zero⟩

def new [NeZero n] : SlotCache size n where
  cache := fun _ => Slot.new
  hand := 0
  trace := []

def put (c : SlotCache size n) (i : Fin n) (slot : Slot size) : SlotCache size n :=
  { c with cache := Function.update c.cache i slot }

def log (c : SlotCache size n) (a : Access) : SlotCache size n := { c with trace := a :: c.trace }

/-- The search of `cache_hit` over `rounds` slots, the hand moving along. -/
def cacheHitFrom (sectorId : Nat) : Nat → SlotCache size n → Option (Fin n) × SlotCache size n
  | 0, c => (none, c)
  | rounds + 1, c =>
    if (c.cache c.hand).sectorId = sectorId ∧ (c.cache c.hand).isValid then
      (some c.hand, c.put c.hand { c.cache c.hand with isUsed := true })
    else cacheHitFrom sectorId rounds { c with hand := nextHand c.hand }

def cacheHit (c : SlotCache size n) (sectorId : Nat) : Option (Fin n) × SlotCache size n :=
  cacheHitFrom sectorId n c

/-- `io.write(sector, block)`, the error mapped to `ExFatError::Io`. -/
def ioWrite (sectorId : Nat) (b : Block size) : ExFat (CacheIo size n) Unit := do
  let (c, d) ← get
  set (c, d.afterWrite sectorId b)
  if d.succeeds then pure () else Exec.raise .io

/-- `io.read(sector, slot.blocks)`: the slot's buffer is changed even when the read fails. -/
def ioRead (sectorId : Nat) (i : Fin n) : ExFat (CacheIo size n) Unit := do
  let (c, d) ← get
  set (c.put i { c.cache i with block := d.fetched sectorId }, d.afterRead)
  if d.succeeds then pure () else Exec.raise .io

/-- `Slot::flush`. -/
def slotFlush (i : Fin n) : ExFat (CacheIo size n) Unit := do
  let (c, _) ← get
  if (c.cache i).isDirty then
    ioWrite (c.cache i).sectorId (c.cache i).block
    modify fun (c, d) => (c.put i { c.cache i with isDirty := false }, d)
  else pure ()

def flushSlots : List (Fin n) → ExFat (CacheIo size n) Unit
  | [] => pure ()
  | i :: rest => do
    slotFlush i
    flushSlots rest

def flush : ExFat (CacheIo size n) Unit := flushSlots (List.finRange n)

/-- The loop of `flush_sector`: slots are matched by sector id alone, and the
first match ends it. -/
def flushSectorIn (sector : Nat) : List (Fin n) → ExFat (CacheIo size n) Unit
  | [] => pure ()
  | i :: rest => do
    let (c, _) ← get
    if (c.cache i).sectorId = sector then slotFlush i else flushSectorIn sector rest

def flushSector (sector : Nat) : ExFat (CacheIo size n) Unit :=
  flushSectorIn sector (List.finRange n)

/-- `write_back`, which leaves the slot clean. -/
def writeBack (i : Fin n) : ExFat (CacheIo size n) Unit := do
  let (c, _) ← get
  ioWrite (c.cache i).sectorId (c.cache i).block
  modify fun (c, d) => (c.put i { c.cache i with isDirty := false }, d)

/-- The loop of `choose_victim`, with a bound on its rounds. -/
def chooseVictimIn : Nat → ExFat (CacheIo size n) (Fin n)
  | 0 => Exec.diverge
  | rounds + 1 => do
    let (c, d) ← get
    let i := c.hand
    let slot := c.cache i
    let c := { c with hand := nextHand i }
    if !slot.isValid then
      set (c, d)
      pure i
    else if slot.isUsed then
      -- the slot gets another chance
      set (c.put i { slot with isUsed := false }, d)
      chooseVictimIn rounds
    else if slot.isDirty then
      set (c, d)
      writeBack i
      pure i
    else
      set (c, d)
      pure i

/-- `choose_victim`. A round that goes on clears one used flag, so `N + 1`
rounds are enough. -/
def chooseVictim : ExFat (CacheIo size n) (Fin n) := chooseVictimIn (n + 1)

/-- `read_inner`. The slot reference it returns is the slot's index here. -/
def readInner (sectorId : Nat) : ExFat (CacheIo size n) (Fin n) := do
  let (c, d) ← get
  let (hit, c) := c.cacheHit sectorId
  set (c, d)
  match hit with
  | some index => pure index
  | none =>
    let index ← chooseVictim
    ioRead sectorId index
    modify fun (c, d) =>
      (c.put index { c.cache index with sectorId, isValid := true, isUsed := true }, d)
    pure index

/-- Records an access in the trace, whatever comes of it. -/
def logged {α : Type} (a : Access) (m : ExFat (CacheIo size n) α) : ExFat (CacheIo size n) α :=
  fun io => ((m io).1, (m io).2.1.log a, (m io).2.2)

/-- `read` and `as_slice` on the slot it returns. -/
def read (sectorId : Nat) : ExFat (CacheIo size n) (Block size) := logged (.look sectorId) do
  let index ← readInner sectorId
  let (c, _) ← get
  pure (c.cache index).block

/-- `read_mut`, with `f` done to the bytes of the slot through `as_mut_slice`.
The result is what the slot holds then. -/
def readMut (sectorId : Nat) (f : Block size → Block size) : ExFat (CacheIo size n) (Block size) :=
  logged (.change sectorId) do
    let index ← readInner sectorId
    let (c, d) ← get
    let block := f (c.cache index).block
    set (c.put index { c.cache index with isDirty := true, block }, d)
    pure block

/-- `write` of a full block, around the slots. -/
def write (sectorId : Nat) (b : Block size) : ExFat (CacheIo size n) Unit :=
  logged (.change sectorId) do
    let (c, d) ← get
    match c.cacheHit sectorId with
    | (some index, c) => set (c.put index { c.cache index with isDirty := false, block := b }, d)
    | (none, c) => set (c, d)
    ioWrite sectorId b

end SlotCache

end ExFatSlim
