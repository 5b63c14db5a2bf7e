import ExFatSlim.ReplyPool
import Mathlib.Tactic.IntervalCases

namespace ExFatSlim

theorem slotBit_eq_zero (bitmap : BitVec 32) {i : Nat} (low : i < replySlots) :
    (bitmap &&& (1#32 <<< i) == 0#32) = !bitmap.getLsbD i := by
  rw [← BitVec.twoPow_eq, BitVec.and_twoPow]
  cases bitmap.getLsbD i with
  | false => simp
  | true =>
    unfold replySlots at low
    interval_cases i <;> rfl

theorem getLsbD_or_slotBit (bitmap : BitVec 32) {i : Nat} (low : i < replySlots) (j : Nat) :
    (bitmap ||| (1#32 <<< i)).getLsbD j = (decide (j = i) || bitmap.getLsbD j) := by
  unfold replySlots at low
  rw [← BitVec.twoPow_eq, BitVec.getLsbD_or, BitVec.getLsbD_twoPow]
  grind

theorem getLsbD_releaseSlotLocked (bitmap : BitVec 32) {i : Nat} (low : i < replySlots) (j : Nat) :
    (releaseSlotLocked bitmap i).getLsbD j = (decide (j ≠ i) && bitmap.getLsbD j) := by
  unfold replySlots at low
  rw [releaseSlotLocked, ← BitVec.twoPow_eq, BitVec.getLsbD_and, BitVec.getLsbD_not, BitVec.getLsbD_twoPow]
  grind

theorem claimFallsBack_iff {bitmap : BitVec 32} :
    claimFallsBack bitmap = true ↔ ∀ i < replySlots, bitmap.getLsbD i = true := by
  simp only [claimFallsBack, List.all_eq_true, List.mem_range]
  refine forall₂_congr fun i low => ?_
  rw [slotBit_eq_zero bitmap low, Bool.not_not]

/-- Without the fallback a claim takes a clear bit and sets it. -/
theorem claimSlotLocked_spec {bitmap : BitVec 32} (room : claimFallsBack bitmap = false) :
    ∃ i < replySlots, bitmap.getLsbD i = false ∧
      claimSlotLocked bitmap = (i, bitmap ||| (1#32 <<< i)) := by
  unfold claimSlotLocked
  cases found : (List.range replySlots).find? fun i => bitmap &&& (1#32 <<< i) == 0#32 with
  | some i =>
    have low := List.mem_range.mp (List.mem_of_find?_eq_some found)
    have clear := List.find?_some found
    simp only [slotBit_eq_zero bitmap low, Bool.not_eq_true'] at clear
    exact ⟨i, low, clear, rfl⟩
  | none =>
    have full := List.find?_eq_none.mp found
    refine absurd (claimFallsBack_iff.mpr fun i low => ?_) (Bool.eq_false_iff.mp room)
    have taken := full i (List.mem_range.mpr low)
    simpa only [slotBit_eq_zero bitmap low, Bool.not_eq_true, Bool.not_eq_false'] using taken

/-- The slot bits and the slots that the clients hold: each set bit belongs
to one client, each client's slot has its bit set. -/
structure Seated {ι : Type} (bitmap : BitVec 32) (slot : ι → Option Nat) : Prop where
  bit : ∀ i < replySlots, bitmap.getLsbD i = true ↔ ∃ c, slot c = some i
  low : ∀ c i, slot c = some i → i < replySlots
  apart : ∀ c d i, slot c = some i → slot d = some i → c = d

namespace Seated

variable {ι : Type} {bitmap : BitVec 32} {slot : ι → Option Nat}

theorem vacant (seated : Seated bitmap slot) {i : Nat} (low : i < replySlots)
    (clear : bitmap.getLsbD i = false) (d : ι) : slot d ≠ some i := by
  intro held
  have set := (seated.bit i low).mpr ⟨d, held⟩
  simp [clear] at set

theorem update_none_eq_some [DecidableEq ι] {c d : ι} {j : Nat} :
    Function.update slot c none d = some j ↔ d ≠ c ∧ slot d = some j := by
  by_cases same : d = c
  · simp [same]
  · simp [same]

theorem update_some_eq_some [DecidableEq ι] {c d : ι} {i j : Nat} :
    Function.update slot c (some i) d = some j ↔ d = c ∧ i = j ∨ d ≠ c ∧ slot d = some j := by
  by_cases same : d = c
  · simp [same]
  · simp [same]

theorem take [DecidableEq ι] (seated : Seated bitmap slot) {c : ι} {i : Nat} (idle : slot c = none)
    (low : i < replySlots) (clear : bitmap.getLsbD i = false) :
    Seated (bitmap ||| (1#32 <<< i)) (Function.update slot c (some i)) := by
  refine ⟨?_, ?_, ?_⟩
  · intro j low'
    simp only [update_some_eq_some, getLsbD_or_slotBit bitmap low, Bool.or_eq_true, decide_eq_true_eq,
      seated.bit j low']
    constructor
    · rintro (rfl | ⟨d, held⟩)
      · exact ⟨c, Or.inl ⟨rfl, rfl⟩⟩
      · exact ⟨d, Or.inr ⟨by rintro rfl; simp [idle] at held, held⟩⟩
    · rintro ⟨d, ⟨_, rfl⟩ | ⟨_, held⟩⟩
      · exact Or.inl rfl
      · exact Or.inr ⟨d, held⟩
  · intro d j held
    rcases update_some_eq_some.mp held with ⟨_, rfl⟩ | ⟨_, held⟩
    · exact low
    · exact seated.low d j held
  · intro d e j one two
    rcases update_some_eq_some.mp one with ⟨first, rfl⟩ | ⟨_, one⟩ <;>
      rcases update_some_eq_some.mp two with ⟨second, same⟩ | ⟨_, two⟩
    · rw [first, second]
    · exact absurd two (seated.vacant low clear e)
    · exact absurd (same ▸ one) (seated.vacant low clear d)
    · exact seated.apart d e j one two

theorem leave [DecidableEq ι] (seated : Seated bitmap slot) {c : ι} {i : Nat} (held : slot c = some i) :
    Seated (releaseSlotLocked bitmap i) (Function.update slot c none) := by
  have low := seated.low c i held
  refine ⟨?_, ?_, ?_⟩
  · intro j low'
    simp only [update_none_eq_some, getLsbD_releaseSlotLocked bitmap low, Bool.and_eq_true,
      decide_eq_true_eq, seated.bit j low']
    constructor
    · rintro ⟨other, d, mine⟩
      refine ⟨d, ?_, mine⟩
      rintro rfl
      exact other (Option.some.inj (mine.symm.trans held))
    · rintro ⟨d, other, mine⟩
      refine ⟨?_, d, mine⟩
      rintro rfl
      exact other (seated.apart d c j mine held)
  · intro d j mine
    exact seated.low d j (update_none_eq_some.mp mine).2
  · intro d e j one two
    exact seated.apart d e j (update_none_eq_some.mp one).2 (update_none_eq_some.mp two).2

/-- The bits count the clients that hold a slot. -/
theorem card_eq [Fintype ι] (seated : Seated bitmap slot) :
    ((Finset.range replySlots).filter fun i => bitmap.getLsbD i).card =
      (Finset.univ.filter fun c => (slot c).isSome).card := by
  symm
  refine Finset.card_bij (fun c _ => (slot c).getD 0) ?_ ?_ ?_
  · intro c member
    obtain ⟨i, held⟩ := Option.isSome_iff_exists.mp (Finset.mem_filter.mp member).2
    have low := seated.low c i held
    simp only [held, Option.getD_some, Finset.mem_filter, Finset.mem_range]
    exact ⟨low, (seated.bit i low).mpr ⟨c, held⟩⟩
  · intro c member d member' equal
    obtain ⟨i, held⟩ := Option.isSome_iff_exists.mp (Finset.mem_filter.mp member).2
    obtain ⟨j, held'⟩ := Option.isSome_iff_exists.mp (Finset.mem_filter.mp member').2
    simp only [held, held', Option.getD_some] at equal
    exact seated.apart c d i held (equal ▸ held')
  · intro i member
    obtain ⟨low, set⟩ := Finset.mem_filter.mp member
    obtain ⟨c, held⟩ := (seated.bit i (Finset.mem_range.mp low)).mp set
    exact ⟨c, by simp [held], by simp [held]⟩

end Seated

/-- The requests under way and the signals, for the tokens that the clients
wait with: every such token is with the actor or answered, once, and an
answer lies in the signal of the client that asked. -/
structure Posted {ι Op Resp : Type} (token : ι → Option ReplyToken) (pending : List (Req ι Op))
    (signals : Nat → Option (ReplySignal ι Resp)) : Prop where
  apart : ∀ c d a b, token c = some a → token d = some b → a.slot = b.slot → c = d
  sent : ∀ r ∈ pending, ∀ t, r.reply = some t → token r.owner = some t ∧ signals t.slot = none
  once : pending.Pairwise fun r q => ∀ a b, r.reply = some a → q.reply = some b → a.slot ≠ b.slot
  answered : ∀ i x, signals i = some x → ∃ t, token x.owner = some t ∧ t.slot = i ∧ t.seq = x.seq
  awaited : ∀ c t, token c = some t →
    (∃ r ∈ pending, r.owner = c ∧ r.reply = some t) ∨ ∃ x, signals t.slot = some x

namespace Posted

variable {ι Op Resp : Type} {token : ι → Option ReplyToken} {pending rest : List (Req ι Op)}
  {signals : Nat → Option (ReplySignal ι Resp)}

theorem send [DecidableEq ι] (posted : Posted token pending signals) {c : ι} {t : ReplyToken} (op : Op)
    (idle : token c = none) (alone : ∀ d b, token d = some b → b.slot ≠ t.slot) :
    Posted (Function.update token c (some t)) (pending ++ [⟨op, some t, c⟩]) signals := by
  have other : ∀ d a, token d = some a → Function.update token c (some t) d = some a := by
    intro d a waits
    have apart : d ≠ c := by rintro rfl; simp [idle] at waits
    simpa [apart] using waits
  have cases_ : ∀ d a, Function.update token c (some t) d = some a → d = c ∧ t = a ∨ token d = some a := by
    intro d a waits
    by_cases same : d = c
    · subst same
      exact Or.inl ⟨rfl, by simpa using waits⟩
    · exact Or.inr (by simpa [same] using waits)
  refine ⟨?_, ?_, ?_, ?_, ?_⟩
  · intro d e a b one two same
    rcases cases_ d a one with ⟨rfl, rfl⟩ | old <;> rcases cases_ e b two with ⟨rfl, rfl⟩ | old'
    · rfl
    · exact absurd same.symm (alone e b old')
    · exact absurd same (alone d a old)
    · exact posted.apart d e a b old old' same
  · intro r member a reply
    rcases List.mem_append.mp member with old | new
    · obtain ⟨waits, free⟩ := posted.sent r old a reply
      exact ⟨other _ _ waits, free⟩
    · cases List.mem_singleton.mp new
      cases reply
      refine ⟨Function.update_self .., ?_⟩
      cases held : signals t.slot with
      | none => rfl
      | some x =>
        obtain ⟨a, waits, same, _⟩ := posted.answered _ _ held
        exact absurd same (alone _ _ waits)
  · refine List.pairwise_append.mpr ⟨posted.once, List.pairwise_singleton _ _, ?_⟩
    intro r old q new a b first second
    cases List.mem_singleton.mp new
    cases second
    exact alone _ _ (posted.sent r old a first).1
  · intro i x held
    obtain ⟨a, waits, same⟩ := posted.answered i x held
    exact ⟨a, other _ _ waits, same⟩
  · intro d a waits
    rcases cases_ d a waits with ⟨rfl, rfl⟩ | waits
    · exact Or.inl ⟨_, List.mem_append_right _ (List.mem_singleton_self _), rfl, rfl⟩
    · rcases posted.awaited d a waits with ⟨r, old, mine⟩ | held
      · exact Or.inl ⟨r, List.mem_append_left _ old, mine⟩
      · exact Or.inr held

theorem post (posted : Posted token pending signals) (c : ι) (op : Op) :
    Posted token (pending ++ [⟨op, none, c⟩]) signals := by
  refine ⟨posted.apart, ?_, ?_, posted.answered, ?_⟩
  · intro r member a reply
    rcases List.mem_append.mp member with old | new
    · exact posted.sent r old a reply
    · cases List.mem_singleton.mp new
      cases reply
  · refine List.pairwise_append.mpr ⟨posted.once, List.pairwise_singleton _ _, ?_⟩
    intro r _ q new a b _ second
    cases List.mem_singleton.mp new
    cases second
  · intro d a waits
    exact (posted.awaited d a waits).imp_left fun ⟨r, old, mine⟩ => ⟨r, List.mem_append_left _ old, mine⟩

/-- The actor puts an answer into the signal of the request it worked on. -/
theorem complete {op : Op} {c : ι} {t : ReplyToken}
    (posted : Posted token (⟨op, some t, c⟩ :: rest) signals) (resp : Resp) :
    Posted token rest (Function.update signals t.slot (some ⟨t.seq, resp, c⟩)) := by
  obtain ⟨mine, free⟩ := posted.sent _ List.mem_cons_self t rfl
  obtain ⟨first, once⟩ := List.pairwise_cons.mp posted.once
  refine ⟨posted.apart, ?_, once, ?_, ?_⟩
  · intro r member a reply
    obtain ⟨waits, empty⟩ := posted.sent r (List.mem_cons_of_mem _ member) a reply
    have other : a.slot ≠ t.slot := (first r member t a rfl reply).symm
    exact ⟨waits, by simpa [other] using empty⟩
  · intro i x held
    by_cases same : i = t.slot
    · subst same
      rw [Function.update_self] at held
      obtain rfl := Option.some.inj held
      exact ⟨t, mine, rfl, rfl⟩
    · exact posted.answered i x (by simpa [same] using held)
  · intro d a waits
    by_cases same : a.slot = t.slot
    · exact Or.inr ⟨_, by rw [same]; exact Function.update_self ..⟩
    · rcases posted.awaited d a waits with ⟨r, member, owner, reply⟩ | ⟨x, held⟩
      · rcases List.mem_cons.mp member with rfl | member
        · cases reply
          exact absurd rfl same
        · exact Or.inl ⟨r, member, owner, reply⟩
      · exact Or.inr ⟨x, by simpa [same] using held⟩

theorem skip {op : Op} {c : ι} (posted : Posted token (⟨op, none, c⟩ :: rest) signals) :
    Posted token rest signals := by
  refine ⟨posted.apart, ?_, (List.pairwise_cons.mp posted.once).2, posted.answered, ?_⟩
  · intro r member a reply
    exact posted.sent r (List.mem_cons_of_mem _ member) a reply
  · intro d a waits
    refine (posted.awaited d a waits).imp_left ?_
    rintro ⟨r, member, owner, reply⟩
    rcases List.mem_cons.mp member with rfl | member
    · cases reply
    · exact ⟨r, member, owner, reply⟩

/-- What lies in the signal that a client waits on is the answer to its own request. -/
theorem own (posted : Posted token pending signals) {c : ι} {t : ReplyToken} {x : ReplySignal ι Resp}
    (waits : token c = some t) (held : signals t.slot = some x) : x.owner = c ∧ x.seq = t.seq := by
  obtain ⟨a, asked, same, seq⟩ := posted.answered _ _ held
  obtain rfl := posted.apart _ _ _ _ asked waits same
  obtain rfl := Option.some.inj (asked.symm.trans waits)
  exact ⟨rfl, seq.symm⟩

theorem collect [DecidableEq ι] (posted : Posted token pending signals) {c : ι} {t : ReplyToken}
    {x : ReplySignal ι Resp} (waits : token c = some t) (held : signals t.slot = some x) :
    Posted (Function.update token c none) pending (Function.update signals t.slot none) := by
  have other : ∀ d a, Function.update token c none d = some a → d ≠ c ∧ token d = some a := by
    intro d a asked
    by_cases same : d = c
    · simp [same] at asked
    · exact ⟨same, by simpa [same] using asked⟩
  refine ⟨?_, ?_, posted.once, ?_, ?_⟩
  · intro d e a b one two
    exact posted.apart d e a b (other d a one).2 (other e b two).2
  · intro r member a reply
    obtain ⟨asked, free⟩ := posted.sent r member a reply
    have apart : r.owner ≠ c := by
      intro same
      obtain rfl := Option.some.inj (waits.symm.trans (same ▸ asked))
      simp [held] at free
    refine ⟨by simpa [apart] using asked, ?_⟩
    by_cases same : a.slot = t.slot
    · simp [same]
    · simpa [same] using free
  · intro i y found
    have apart : i ≠ t.slot := by rintro rfl; simp at found
    obtain ⟨a, asked, same, seq⟩ := posted.answered i y (by simpa [apart] using found)
    have distinct : y.owner ≠ c := by
      intro equal
      obtain rfl := Option.some.inj (waits.symm.trans (equal ▸ asked))
      exact apart same.symm
    exact ⟨a, by simpa [distinct] using asked, same, seq⟩
  · intro d a asked
    obtain ⟨distinct, asked⟩ := other d a asked
    have apart : a.slot ≠ t.slot := fun same => distinct (posted.apart d c a t asked waits same)
    exact (posted.awaited d a asked).imp_right fun ⟨y, found⟩ => ⟨y, by simpa [apart] using found⟩

end Posted

namespace Pool

variable {ι Op Resp : Type} {s s' : Pool ι Op Resp}

def slotOf (s : Pool ι Op Resp) (c : ι) : Option Nat := (s.client c).slot

/-- The token that a client waits with. -/
def tokenOf (s : Pool ι Op Resp) (c : ι) : Option ReplyToken :=
  match s.client c with
  | .waiting t => some t
  | _ => none

/-- What the bitmap, the queue and the signals know about the clients as long
as no claim has met a full bitmap. -/
structure Kept (s : Pool ι Op Resp) : Prop where
  seated : Seated s.bitmap s.slotOf
  posted : Posted s.tokenOf s.pending s.signals
  delivered : ∀ c t x, s.client c = .matched t x → x.owner = c ∧ x.seq = t.seq
  claims : s.fallbacks = 0

theorem tokenOf_eq_some {c : ι} {t : ReplyToken} : s.tokenOf c = some t ↔ s.client c = .waiting t := by
  unfold tokenOf
  split <;> simp_all

theorem slotOf_of_tokenOf {c : ι} {t : ReplyToken} (waits : s.tokenOf c = some t) :
    s.slotOf c = some t.slot := by
  rw [slotOf, tokenOf_eq_some.mp waits, Client.slot]

theorem Kept.start : Kept ({} : Pool ι Op Resp) where
  seated := by constructor <;> simp [slotOf, Client.slot]
  posted := by constructor <;> simp [tokenOf, pending]
  delivered := by simp
  claims := rfl

section Become

variable [DecidableEq ι] {c : ι} {x : Client ι Resp}

theorem become_slotOf : (s.become c x).slotOf = Function.update s.slotOf c x.slot :=
  Function.comp_update Client.slot s.client c x

theorem become_slotOf_same (same : x.slot = s.slotOf c) : (s.become c x).slotOf = s.slotOf := by
  rw [become_slotOf, same, Function.update_eq_self]

theorem become_tokenOf_same (before : s.tokenOf c = none) (after : ∀ t, x ≠ .waiting t) :
    (s.become c x).tokenOf = s.tokenOf := by
  funext d
  refine Option.ext fun t => ?_
  by_cases same : d = c
  · simp [tokenOf_eq_some, become, same, before, after]
  · simp [tokenOf_eq_some, become, same]

theorem become_tokenOf_waiting (t : ReplyToken) :
    (s.become c (.waiting t)).tokenOf = Function.update s.tokenOf c (some t) := by
  funext d
  by_cases same : d = c
  · simp [tokenOf, become, same]
  · simp [tokenOf, become, same]

theorem become_tokenOf_none (after : ∀ t, x ≠ .waiting t) :
    (s.become c x).tokenOf = Function.update s.tokenOf c none := by
  funext d
  by_cases same : d = c
  · refine Option.ext fun t => ?_
    simp [tokenOf_eq_some, become, same, after]
  · simp [tokenOf, become, same]

theorem Kept.delivered_become (kept : s.Kept) (right : ∀ t y, x = .matched t y → y.owner = c ∧ y.seq = t.seq)
    (d : ι) (t : ReplyToken) (y : ReplySignal ι Resp) (found : (s.become c x).client d = .matched t y) :
    y.owner = d ∧ y.seq = t.seq := by
  by_cases same : d = c
  · subst same
    exact right t y (by simpa [become] using found)
  · exact kept.delivered d t y (by simpa [become, same] using found)

/-- A client that goes on without changing its slot, outside of `wait`. -/
theorem Kept.proceed (kept : s.Kept) (slot : x.slot = s.slotOf c) (before : s.tokenOf c = none)
    (after : ∀ t, x ≠ .waiting t) (unmatched : ∀ t y, x ≠ .matched t y) : (s.become c x).Kept where
  seated := become_slotOf_same slot ▸ kept.seated
  posted := become_tokenOf_same before after ▸ kept.posted
  delivered := kept.delivered_become fun t y equal => absurd equal (unmatched t y)
  claims := kept.claims

end Become

/-- With a slot to spare the loop of `claim_slot_locked` finds it. -/
theorem claimFallsBack_iff_outstanding [Fintype ι] (counted : s.slotsTaken = s.outstanding) :
    claimFallsBack s.bitmap = true ↔ replySlots ≤ s.outstanding := by
  rw [claimFallsBack_iff, ← counted]
  constructor
  · intro full
    refine le_of_eq ?_
    rw [slotsTaken, Finset.filter_true_of_mem fun i low => full i (Finset.mem_range.mp low),
      Finset.card_range]
  · intro full i low
    have all := Finset.eq_of_subset_of_card_le (Finset.filter_subset (fun i => s.bitmap.getLsbD i)
      (Finset.range replySlots)) (by rw [Finset.card_range]; exact full)
    have member : i ∈ (Finset.range replySlots).filter fun i => s.bitmap.getLsbD i := by
      rw [all]
      exact Finset.mem_range.mpr low
    exact (Finset.mem_filter.mp member).2

variable [DecidableEq ι]

theorem fallbacks_of_claim {c : ι} (run : s.step (.claim c) = some s') :
    s'.fallbacks = s.fallbacks + (claimFallsBack s.bitmap).toNat := by
  simp only [Pool.step] at run
  split at run
  · cases run
    rfl
  · cases run

theorem Kept.claim {c : ι} (kept : s.Kept) (spare : claimFallsBack s.bitmap = false)
    (run : s.step (.claim c) = some s') : s'.Kept := by
  simp only [Pool.step] at run
  split at run
  · rename_i at_
    obtain ⟨i, low, clear, claimed⟩ := claimSlotLocked_spec spare
    rw [claimed] at run
    cases run
    have idle : s.slotOf c = none := by simp [slotOf, at_, Client.slot]
    refine ⟨?_, ?_, kept.delivered_become (by simp), ?_⟩
    · change Seated _ (s.become c (.claimed i)).slotOf
      rw [become_slotOf]
      exact kept.seated.take idle low clear
    · change Posted (s.become c (.claimed i)).tokenOf s.pending s.signals
      rw [become_tokenOf_same (by simp [tokenOf, at_]) (by simp)]
      exact kept.posted
    · simp [spare, kept.claims]
  · cases run

theorem Kept.send {c : ι} {op : Op} (kept : s.Kept) (run : s.step (.send c op) = some s') : s'.Kept := by
  simp only [Pool.step] at run
  split at run
  · rename_i t at_
    split at run
    · cases run
      have mine : s.slotOf c = some t.slot := by simp [slotOf, at_, Client.slot]
      have silent : s.tokenOf c = none := by simp [tokenOf, at_]
      refine ⟨?_, ?_, kept.delivered_become (by simp), kept.claims⟩
      · change Seated s.bitmap (s.become c (.waiting t)).slotOf
        rw [become_slotOf_same (by rw [mine, Client.slot])]
        exact kept.seated
      · change Posted (s.become c (.waiting t)).tokenOf (s.actor.toList ++ (s.req ++ _)) s.signals
        rw [become_tokenOf_waiting, ← List.append_assoc]
        refine kept.posted.send op silent fun d b waits same => ?_
        -- whoever waits on this slot is the sender, which does not wait yet
        obtain rfl := kept.seated.apart d c t.slot (by rw [slotOf_of_tokenOf waits, same]) mine
        simp [silent] at waits
    · cases run
  · cases run

theorem Kept.complete {resp : Resp} (kept : s.Kept) (run : s.step (.complete resp) = some s') : s'.Kept := by
  have posted := kept.posted
  simp only [Pool.step] at run
  split at run
  · rename_i op t owner work
    cases run
    simp only [pending, work, Option.toList_some, List.cons_append, List.nil_append] at posted
    exact ⟨kept.seated, posted.complete resp, kept.delivered, kept.claims⟩
  · rename_i op owner work
    cases run
    simp only [pending, work, Option.toList_some, List.cons_append, List.nil_append] at posted
    exact ⟨kept.seated, posted.skip, kept.delivered, kept.claims⟩
  · cases run

/-- What `wait` takes from a slot is the answer to the request of the client that waits. -/
theorem Kept.wait {c : ι} (kept : s.Kept) (run : s.step (.wait c) = some s') : s'.Kept := by
  simp only [Pool.step] at run
  split at run
  · rename_i t at_
    split at run
    · rename_i x held
      have waits : s.tokenOf c = some t := tokenOf_eq_some.mpr at_
      obtain ⟨owner, seq⟩ := kept.posted.own waits held
      rw [if_pos seq] at run
      cases run
      refine ⟨?_, ?_, ?_, kept.claims⟩
      · change Seated s.bitmap (s.become c (.matched t x)).slotOf
        rw [become_slotOf_same (by simp [slotOf, at_, Client.slot])]
        exact kept.seated
      · change Posted (s.become c (.matched t x)).tokenOf s.pending _
        rw [become_tokenOf_none (by simp)]
        exact kept.posted.collect waits held
      · refine kept.delivered_become (c := c) (x := .matched t x) ?_
        rintro _ _ ⟨⟩
        exact ⟨owner, seq⟩
    · cases run
  · cases run

theorem Kept.release {c : ι} (kept : s.Kept) (run : s.step (.release c) = some s') : s'.Kept := by
  simp only [Pool.step] at run
  split at run
  · rename_i t x at_
    cases run
    refine ⟨?_, ?_, kept.delivered_become (by simp), kept.claims⟩
    · change Seated _ (s.become c (.released x)).slotOf
      rw [become_slotOf]
      exact kept.seated.leave (by simp [slotOf, at_, Client.slot])
    · change Posted (s.become c (.released x)).tokenOf s.pending s.signals
      rw [become_tokenOf_same (by simp [tokenOf, at_]) (by simp)]
      exact kept.posted
  · cases run

theorem Kept.step {event : PoolEvent ι Op Resp} (kept : s.Kept)
    (room : ∀ c, event = .claim c → claimFallsBack s.bitmap = false)
    (run : s.step event = some s') : s'.Kept := by
  cases event with
  | claim c => exact kept.claim (room c rfl) run
  | send c op => exact kept.send run
  | complete resp => exact kept.complete run
  | wait c => exact kept.wait run
  | release c => exact kept.release run
  | acquire c =>
    simp only [Pool.step] at run
    split at run
    · rename_i at_
      split at run
      · cases run
        have next := kept.proceed (c := c) (x := .guarded) (by simp [slotOf, at_, Client.slot])
          (by simp [tokenOf, at_]) (by simp) (by simp)
        exact ⟨next.seated, next.posted, next.delivered, next.claims⟩
      · cases run
    · cases run
  | unguard c =>
    simp only [Pool.step] at run
    split at run
    · rename_i at_
      cases run
      have next := kept.proceed (c := c) (x := .admitted) (by simp [slotOf, at_, Client.slot])
        (by simp [tokenOf, at_]) (by simp) (by simp)
      exact ⟨next.seated, next.posted, next.delivered, next.claims⟩
    · cases run
  | number c =>
    simp only [Pool.step] at run
    split at run
    · rename_i slot at_
      cases run
      have next := kept.proceed (c := c) (x := .sending ⟨slot, s.seq⟩) (by simp [slotOf, at_, Client.slot])
        (by simp [tokenOf, at_]) (by simp) (by simp)
      exact ⟨next.seated, next.posted, next.delivered, next.claims⟩
    · cases run
  | post c op =>
    simp only [Pool.step] at run
    split at run
    · cases run
      refine ⟨kept.seated, ?_, kept.delivered, kept.claims⟩
      change Posted s.tokenOf (s.actor.toList ++ (s.req ++ _)) s.signals
      rw [← List.append_assoc]
      exact kept.posted.post c op
    · cases run
  | receive =>
    simp only [Pool.step] at run
    split at run
    · rename_i r rest free queue
      cases run
      refine ⟨kept.seated, ?_, kept.delivered, kept.claims⟩
      have posted := kept.posted
      simp only [pending, free, queue, Option.toList_none, List.nil_append] at posted
      exact posted
    · cases run
  | giveBack c =>
    simp only [Pool.step] at run
    split at run
    · rename_i at_
      cases run
      have next := kept.proceed (c := c) (x := .idle) (by simp [slotOf, at_, Client.slot])
        (by simp [tokenOf, at_]) (by simp) (by simp)
      exact ⟨next.seated, next.posted, next.delivered, next.claims⟩
    · cases run

theorem run_append (s : Pool ι Op Resp) (before after : List (PoolEvent ι Op Resp)) :
    s.run (before ++ after) = (s.run before).bind fun s' => s'.run after := by
  simp only [run, List.foldlM_append]
  rfl

variable [Fintype ι]

/-- Whenever a client claims a slot, fewer tokens are outstanding than there
are slots. -/
def Roomy (s : Pool ι Op Resp) (events : List (PoolEvent ι Op Resp)) : Prop :=
  ∀ before c after, events = before ++ .claim c :: after →
    ∀ s', s.run before = some s' → s'.outstanding < replySlots

/-- Every client gets its own reply. -/
structure Orderly (s : Pool ι Op Resp) : Prop where
  apart : ∀ c d slot, (s.client c).slot = some slot → (s.client d).slot = some slot → c = d
  claims : s.fallbacks = 0
  counted : s.slotsTaken = s.outstanding
  /-- The response to a request under way will overwrite no other. -/
  unread : ∀ r ∈ s.pending, ∀ t, r.reply = some t → s.client r.owner = .waiting t ∧ s.signals t.slot = none
  /-- A response lies where the client that asked for it waits, with its sequence number. -/
  addressed : ∀ i x, s.signals i = some x → ∃ t, s.client x.owner = .waiting t ∧ t.slot = i ∧ t.seq = x.seq
  /-- Nobody else can consume it. -/
  reserved : ∀ c t x, s.client c = .waiting t → s.signals t.slot = some x → x.owner = c ∧ x.seq = t.seq
  /-- No reply is lost. -/
  awaited : ∀ c t, s.client c = .waiting t →
    (∃ r ∈ s.pending, r.owner = c ∧ r.reply = some t) ∨ ∃ x, s.signals t.slot = some x
  delivered : ∀ c t x, s.client c = .matched t x → x.owner = c ∧ x.seq = t.seq

omit [DecidableEq ι] in
theorem Kept.orderly (kept : s.Kept) : s.Orderly where
  apart := kept.seated.apart
  claims := kept.claims
  counted := kept.seated.card_eq
  unread r member t reply := by
    obtain ⟨waits, free⟩ := kept.posted.sent r member t reply
    exact ⟨tokenOf_eq_some.mp waits, free⟩
  addressed i x held := by
    obtain ⟨t, waits, same⟩ := kept.posted.answered i x held
    exact ⟨t, tokenOf_eq_some.mp waits, same⟩
  reserved c t x waits held := kept.posted.own (tokenOf_eq_some.mpr waits) held
  awaited c t waits := kept.posted.awaited c t (tokenOf_eq_some.mpr waits)
  delivered := kept.delivered

theorem Roomy.left {s : Pool ι Op Resp} {before after : List (PoolEvent ι Op Resp)}
    (roomy : s.Roomy (before ++ after)) : s.Roomy before := by
  rintro first c last rfl s' run
  exact roomy first c (last ++ after) (by simp) s' run

/-- Induction on the schedule from its end: the last step starts where the
schedule before it left the pool. -/
theorem Roomy.kept {events : List (PoolEvent ι Op Resp)} (roomy : Roomy ({} : Pool ι Op Resp) events)
    (run : ({} : Pool ι Op Resp).run events = some s) : s.Kept := by
  induction events using List.reverseRecOn generalizing s with
  | nil =>
    cases run
    exact .start
  | append_singleton events event ih =>
    rw [run_append] at run
    obtain ⟨middle, first, last⟩ := Option.bind_eq_some_iff.mp run
    have kept := ih roomy.left first
    have last : middle.step event = some s := by simpa [Pool.run] using last
    refine kept.step ?_ last
    rintro c rfl
    have room := roomy events c [] rfl middle first
    by_contra full
    have crowded := (claimFallsBack_iff_outstanding kept.seated.card_eq).mp (by simpa using full)
    omega

/-- A claim is the one step that can break the order of the pool, and it does
so when every slot is taken: the semaphore does not hold it back. -/
theorem orderly_iff_roomy (events : List (PoolEvent ι Op Resp))
    (run : ({} : Pool ι Op Resp).run events = some s) :
    (∀ before after, events = before ++ after →
        ∀ s', ({} : Pool ι Op Resp).run before = some s' → s'.Orderly) ↔
      Roomy ({} : Pool ι Op Resp) events := by
  constructor
  · rintro orderly before c after rfl s' reached
    by_contra full
    have split : before ++ PoolEvent.claim c :: after = (before ++ [.claim c]) ++ after := by simp
    rw [split, run_append] at run
    obtain ⟨next, reached', _⟩ := Option.bind_eq_some_iff.mp run
    have claims := (orderly (before ++ [.claim c]) after split next reached').claims
    rw [run_append, reached] at reached'
    have step : s'.step (.claim c) = some next := by simpa [Pool.run] using reached'
    have counted := (orderly before (.claim c :: after) rfl s' reached).counted
    have back := (claimFallsBack_iff_outstanding counted).mpr (by omega)
    rw [fallbacks_of_claim step, back] at claims
    simp at claims
  · rintro roomy before after rfl s' reached
    exact (roomy.left.kept reached).orderly

/-- One call of a client, up to its request in the channel. -/
def asks (c : ι) (op : Op) : List (PoolEvent ι Op Resp) :=
  [.acquire c, .unguard c, .claim c, .number c, .send c op]

/-- Two clients have two slots at most, so any schedule of theirs is roomy; in
this one both are served in the order of their requests. -/
theorem orderly_iff_roomy_two_clients :
    ∃ s, ({} : Pool (Fin 2) Unit Nat).run (asks 0 () ++ asks 1 () ++
        [.receive, .complete 10, .receive, .complete 11, .wait 1, .wait 0]) = some s ∧
      s.client 0 = .matched ⟨0, 1⟩ ⟨1, 10, 0⟩ ∧ s.client 1 = .matched ⟨1, 2⟩ ⟨2, 11, 1⟩ ∧ s.Orderly := by
  have reached : ∃ s, ({} : Pool (Fin 2) Unit Nat).run (asks 0 () ++ asks 1 () ++
        [.receive, .complete 10, .receive, .complete 11, .wait 1, .wait 0]) = some s ∧
      s.client 0 = .matched ⟨0, 1⟩ ⟨1, 10, 0⟩ ∧ s.client 1 = .matched ⟨1, 2⟩ ⟨2, 11, 1⟩ := ⟨_, rfl, rfl, rfl⟩
  obtain ⟨s, run, first, second⟩ := reached
  refine ⟨s, run, first, second, ?_⟩
  refine (orderly_iff_roomy _ run).mpr ?_ _ [] (List.append_nil _).symm s run
  intro before c after _ s' _
  have few : s'.outstanding ≤ (Finset.univ : Finset (Fin 2)).card := Finset.card_filter_le _ _
  simp only [Finset.card_univ, Fintype.card_fin] at few
  unfold replySlots
  omega

/-- Five clients that ask at the same time. The fifth claim falls back to slot
0, which the first client holds: its response is overwritten by that of the
fifth, which the first consumes in vain. Both wait for ever. -/
theorem five_clients_share_a_slot :
    ∃ s, ({} : Pool (Fin 5) Unit Nat).run (asks 0 () ++ asks 1 () ++ asks 2 () ++ asks 3 () ++ asks 4 () ++
        [.receive, .complete 10, .receive, .complete 11, .receive, .complete 12, .receive, .complete 13,
          .receive, .complete 14, .wait 0]) = some s ∧
      ¬ s.Orderly ∧ s.client 0 = .waiting ⟨0, 1⟩ ∧ s.client 4 = .waiting ⟨0, 5⟩ ∧ s.signals 0 = none ∧
      s.pending = [] ∧ s.fallbacks = 1 := by
  refine ⟨_, rfl, ?_, rfl, rfl, rfl, rfl, rfl⟩
  intro orderly
  exact absurd (orderly.apart 0 4 0 rfl rfl) (by decide)

end Pool

end ExFatSlim
