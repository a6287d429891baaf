import Iouxx.Lib.Stream
import Iouxx.Ops.Callback
import Iouxx.Ring.Queue
import Mathlib.Data.List.Nodup
import Mathlib.Data.List.Pairwise

/-!
# Delivering completions (`iouringxx.hpp`, `fetch_result`, `wait_for_result`, `operation_result`)

An operation may post many entries; each but the last has `IORING_CQE_F_MORE`, and the operation stays
in flight until the last. The program takes entries with `fetch_result` or `wait_for_result` and calls
the callback of each. This is the ring of `Queue` with such entries, together with the lists of all
slots that were reserved, of those the kernel took, and of the entries that were posted and delivered.

* `delivers_step`: what one event preserves, whatever `io_uring_submit` returns and in whatever order
  the kernel completes;
* `delivers_of_reachable`: **every entry is delivered once, in the order of posting, to the operation
  whose slot it completes**;
* `nothing_lost`: **when nothing is pending any more, every slot that was reserved was taken once, in
  order, and its whole stream was delivered**.
-/

namespace Iouxx.Ring

open Iouxx.Cpp.Error Iouxx.Lib Iouxx.Lib.Trace Iouxx.Ops Iouxx.Utility

universe u

variable {Res : Type u}

namespace Cqe

/-- More entries of the operation follow. -/
def more (c : Cqe) : Bool := Ops.more c.flags

/-- The slot that the entry completes. -/
def slot (c : Cqe) : Sqe := ⟨c.userData, c.ticket⟩

end Cqe

namespace Queue

/-- The kernel posts an entry for what is in flight with this ticket, which stays in flight where more
entries follow. -/
def post (st : Queue Res) (c : Completion) : Option (Queue Res × Cqe) :=
  match st.inflight.find? fun e => e.ticket == c.ticket with
  | none => none
  | some e =>
    let cqe : Cqe := ⟨e.userData, c.res, c.flags, c.ticket⟩
    some ({ st with
      inflight := if cqe.more then st.inflight
        else st.inflight.filter fun e => e.ticket != c.ticket
      cq := st.cq ++ [cqe]
      posted := if cqe.more then st.posted else st.posted ++ [c.ticket] }, cqe)

/-- `fetch_result`, where `io_uring_peek_cqe` returns `ev`: `-EAGAIN` where there is nothing. -/
def fetchResult (st : Queue Res) (ev : ℤ) : Option (Queue Res × Except ErrorCode Cqe) :=
  if ev < 0 then some (st, fail (-ev))
  else
    match st.cq with
    | [] => none
    | c :: rest => some ({ st with cq := rest }, .ok c)

theorem post_eq_complete (st : Queue Res) (c : Completion) (h : Ops.more c.flags = false) :
    (st.post c).map Prod.fst = st.complete c := by
  unfold post complete
  rcases hfind : st.inflight.find? (fun e => e.ticket == c.ticket) with _ | e
  · rw [hfind]
    rfl
  · rw [hfind]
    have hmore : (⟨e.userData, c.res, c.flags, c.ticket⟩ : Cqe).more = false := h
    simp [hmore]

theorem post_spec {st st' : Queue Res} {c : Completion} {cqe : Cqe}
    (h : st.post c = some (st', cqe)) :
    cqe.slot ∈ st.inflight ∧ st' = { st with
      inflight := if cqe.more then st.inflight
        else st.inflight.filter fun e => e.ticket != cqe.ticket
      cq := st.cq ++ [cqe]
      posted := if cqe.more then st.posted else st.posted ++ [cqe.ticket] } := by
  unfold post at h
  rcases hfind : st.inflight.find? (fun e => e.ticket == c.ticket) with _ | e
  · rw [hfind] at h; cases h
  · rw [hfind] at h
    obtain ⟨rfl, rfl⟩ := Prod.mk.inj (Option.some.inj h)
    refine ⟨?_, rfl⟩
    have hticket : e.ticket = c.ticket := by simpa using List.find?_some hfind
    have hslot : Cqe.slot ⟨e.userData, c.res, c.flags, c.ticket⟩ = e := by
      rw [Cqe.slot, ← hticket]
    rw [hslot]
    exact List.mem_of_find?_eq_some hfind

theorem post_fields {st st' : Queue Res} {c : Completion} {cqe : Cqe}
    (h : st.post c = some (st', cqe)) : cqe.ticket = c.ticket ∧ cqe.res = c.res := by
  unfold post at h
  rcases hfind : st.inflight.find? (fun e => e.ticket == c.ticket) with _ | e
  · rw [hfind] at h; cases h
  · rw [hfind] at h
    obtain ⟨-, rfl⟩ := Prod.mk.inj (Option.some.inj h)
    exact ⟨rfl, rfl⟩

theorem waitForResult_cases {st st' : Queue Res} {ev : ℤ} {r : Except ErrorCode Cqe}
    (h : st.waitForResult ev = some (st', r)) :
    (ev < 0 ∧ st' = st ∧ r = fail (-ev)) ∨
      (0 ≤ ev ∧ ∃ c rest, st.cq = c :: rest ∧ st' = { st with cq := rest } ∧ r = .ok c) := by
  unfold waitForResult at h
  by_cases hev : ev < 0
  · rw [if_pos hev] at h
    obtain ⟨rfl, rfl⟩ := Prod.mk.inj (Option.some.inj h)
    exact .inl ⟨hev, rfl, rfl⟩
  · rw [if_neg hev] at h
    rcases hcq : st.cq with _ | ⟨c, rest⟩
    · rw [hcq] at h; cases h
    · rw [hcq] at h
      obtain ⟨rfl, rfl⟩ := Prod.mk.inj (Option.some.inj h)
      exact .inr ⟨by omega, c, rest, rfl, rfl, rfl⟩

/-- Both ways to take an entry do the same. -/
theorem fetchResult_eq (st : Queue Res) (ev : ℤ) : st.fetchResult ev = st.waitForResult ev := rfl

end Queue

/-! ### The ring with its history -/

/-- A ring, with what happened to its slots and its entries. -/
structure Traffic (Res : Type u) where
  queue : Queue Res
  -- the history
  reserved : List Sqe
  taken : List Sqe
  entries : List Cqe
  delivered : List Cqe

namespace Traffic

/-- A new ring. -/
def init (sqEntries : ℕ) : Traffic Res := ⟨.init sqEntries, [], [], [], []⟩

/-- What happens to a ring: `do_submit`, an entry of the kernel, or an entry that is taken, by
`fetch_result` or `wait_for_result`, and whose callback is called. -/
inductive Event
  | submit (x : OpId) (ev : ℤ)
  | post (c : Completion)
  | fetch (ev : ℤ)
  | wait (ev : ℤ)
  deriving DecidableEq, Repr

/-- The callback of the entry that was taken, where one was. -/
def deliver (ops : Operations Res) (st : Traffic Res)
    (r : Option (Queue Res × Except ErrorCode Cqe)) : Option (Traffic Res) :=
  match r with
  | none => none
  | some (q, .ok c) => some { st with
      queue := q.callback ops c
      delivered := st.delivered ++ [c] }
  | some (q, .error _) => some { st with queue := q }

/-- The slots in front of `io_uring_submit` in a call of `do_submit`, if it gets there. -/
def newSlot (ops : Operations Res) (st : Traffic Res) (x : OpId) : List Sqe :=
  if st.queue.Submits ops x then [⟨x, st.queue.next⟩] else []

/-- What `io_uring_submit` takes in a call of `do_submit`, if it gets there. -/
def newTaken (ops : Operations Res) (st : Traffic Res) (x : OpId) (ev : ℤ) : List Sqe :=
  if st.queue.Submits ops x then (st.queue.slots x).take ev.toNat else []

/-- **One event.** -/
def step (ops : Operations Res) (st : Traffic Res) : Event → Option (Traffic Res)
  | .submit x ev =>
    if st.queue.Possible ops x ev then
      some { st with
        queue := (st.queue.attempt ops x ev).1
        reserved := st.reserved ++ st.newSlot ops x
        taken := st.taken ++ st.newTaken ops x ev }
    else none
  | .post c => (st.queue.post c).map fun r => { st with
      queue := r.1
      entries := st.entries ++ [r.2] }
  | .fetch ev => st.deliver ops (st.queue.fetchResult ev)
  | .wait ev => st.deliver ops (st.queue.waitForResult ev)

/-- The entries for a ticket. -/
def stream (l : List Cqe) (t : ℕ) : List Cqe := l.filter fun c => c.ticket == t

/-- **What holds in every interleaving.** -/
structure Delivers (ops : Operations Res) (st : Traffic Res) : Prop where
  /-- The kernel takes the slots in the order in which they were reserved, each once. -/
  slots : st.taken ++ st.queue.sq = st.reserved
  distinct : (st.reserved.map Sqe.ticket).Pairwise (· < ·)
  /-- Entries are delivered in the order in which they were posted, each once. -/
  order : st.delivered ++ st.queue.cq = st.entries
  /-- An entry goes to the operation whose slot it completes. -/
  own : ∀ c ∈ st.entries, c.slot ∈ st.taken
  /-- What was taken is in flight exactly as long as its stream goes on. -/
  streams : ∀ e ∈ st.taken,
    (e ∈ st.queue.inflight ∧ Stream.Open Cqe.more (stream st.entries e.ticket)) ∨
      (e ∉ st.queue.inflight ∧ Stream.Over Cqe.more (stream st.entries e.ticket))
  /-- A callback holds what its operation computed from the last entry delivered to it. -/
  results : ∀ x, st.queue.results x =
    ((st.delivered.filter fun c => c.userData == x).getLast?.elim (.error .none)
      fun c => ops.doCallback x c.res c.flags)

/-- The invariant. -/
structure Inv (ops : Operations Res) (st : Traffic Res) : Prop extends Delivers ops st where
  fresh : ∀ e ∈ st.reserved, e.ticket < st.queue.next
  inflight : ∀ e ∈ st.queue.inflight, e ∈ st.taken

variable {ops : Operations Res} {st st' : Traffic Res}

theorem inv_init (n : ℕ) : Inv ops (init n : Traffic Res) where
  slots := rfl
  distinct := List.Pairwise.nil
  order := rfl
  own := fun _ h => absurd h List.not_mem_nil
  streams := fun _ h => absurd h List.not_mem_nil
  results := fun _ => rfl
  fresh := fun _ h => absurd h List.not_mem_nil
  inflight := fun _ h => absurd h List.not_mem_nil

/-! ### Tickets -/

theorem Delivers.slot_inj (h : Delivers ops st) {e e' : Sqe} (he : e ∈ st.taken) (he' : e' ∈ st.taken)
    (heq : e.ticket = e'.ticket) : e = e' := by
  have hnodup : (st.reserved.map Sqe.ticket).Nodup := h.distinct.imp fun hlt => hlt.ne
  have hmem : ∀ e ∈ st.taken, e ∈ st.reserved := by
    intro e he
    rw [← h.slots]
    exact List.mem_append_left _ he
  exact List.inj_on_of_nodup_map hnodup (hmem e he) (hmem e' he') heq

theorem stream_concat (l : List Cqe) (c : Cqe) (t : ℕ) :
    stream (l ++ [c]) t = if c.ticket = t then stream l t ++ [c] else stream l t := by
  unfold stream
  rw [List.filter_append]
  by_cases h : c.ticket = t
  · simp [h]
  · simp [h]

theorem Delivers.stream_eq_nil (h : Delivers ops st) {t : ℕ} (ht : ∀ e ∈ st.taken, e.ticket ≠ t) :
    stream st.entries t = [] := by
  refine List.filter_eq_nil_iff.mpr fun c hc hct => ?_
  exact ht c.slot (h.own c hc) (beq_iff_eq.mp hct)

/-! ### One event -/

theorem attempt_slots (ops : Operations Res) (st : Traffic Res) (x : OpId) (ev : ℤ) :
    st.newTaken ops x ev ++ (st.queue.attempt ops x ev).1.sq = st.queue.sq ++ st.newSlot ops x ∧
    (st.queue.attempt ops x ev).1.inflight = st.queue.inflight ++ st.newTaken ops x ev ∧
    (st.queue.attempt ops x ev).1.cq = st.queue.cq ∧
    (st.queue.attempt ops x ev).1.next = st.queue.next + 1 ∧
    (st.queue.attempt ops x ev).1.results = st.queue.results := by
  unfold newTaken newSlot
  rcases Queue.attempt_cases ops st.queue x ev with ⟨hs, -, he⟩ | ⟨hs, -, he⟩
  · rw [if_neg hs, if_neg hs, he]
    exact ⟨(List.append_nil _).symm, (List.append_nil _).symm, rfl, rfl, rfl⟩
  · rw [if_pos hs, if_pos hs, he]
    exact ⟨List.take_append_drop _ _, rfl, rfl, rfl, rfl⟩

theorem mem_newSlot {x : OpId} {e : Sqe} :
    e ∈ st.newSlot ops x ↔ st.queue.Submits ops x ∧ e = ⟨x, st.queue.next⟩ := by
  unfold newSlot
  split
  · rename_i hs
    rw [List.mem_singleton, and_iff_right hs]
  · rename_i hs
    exact iff_of_false List.not_mem_nil fun h => hs h.1

/-- **A submission.** Slots that are taken are in flight and have no entries yet. -/
theorem inv_submit (h : Inv ops st) (x : OpId) (ev : ℤ) : Inv ops { st with
    queue := (st.queue.attempt ops x ev).1
    reserved := st.reserved ++ st.newSlot ops x
    taken := st.taken ++ st.newTaken ops x ev } := by
  obtain ⟨hslots, hinflight, hcq, hnext, hresults⟩ := attempt_slots ops st x ev
  have hnew : ∀ e ∈ st.newSlot ops x, e.ticket = st.queue.next := by
    intro e he
    rw [(mem_newSlot.mp he).2]
  have hreserved : st.taken ++ (st.newTaken ops x ev ++ (st.queue.attempt ops x ev).1.sq) =
      st.reserved ++ st.newSlot ops x := by
    rw [hslots, ← List.append_assoc, h.slots]
  have hdistinct : ((st.reserved ++ st.newSlot ops x).map Sqe.ticket).Pairwise (· < ·) := by
    rw [List.map_append]
    refine List.pairwise_append.mpr ⟨h.distinct, ?_, fun t ht t' ht' => ?_⟩
    · unfold newSlot
      split <;> simp
    · obtain ⟨e, he, rfl⟩ := List.mem_map.mp ht
      obtain ⟨e', he', rfl⟩ := List.mem_map.mp ht'
      rw [hnew e' he']
      exact h.fresh e he
  have hlt : ∀ e ∈ st.taken, ∀ e' ∈ st.newTaken ops x ev, e.ticket < e'.ticket := by
    intro e he e' he'
    rw [← hreserved, ← List.append_assoc, List.map_append, List.map_append] at hdistinct
    exact (List.pairwise_append.mp (List.pairwise_append.mp hdistinct).1).2.2
      e.ticket (List.mem_map_of_mem he) e'.ticket (List.mem_map_of_mem he')
  refine ⟨⟨?_, hdistinct, ?_, fun c hc => List.mem_append_left _ (h.own c hc), fun e he => ?_,
    fun x => ?_⟩, fun e he => ?_, fun e he => ?_⟩
  · rw [List.append_assoc]
    exact hreserved
  · rw [hcq]
    exact h.order
  · rw [hinflight]
    rcases List.mem_append.mp he with he | he
    · -- taken before: in flight as before, since the new tickets are others
      rcases h.streams e he with ⟨hin, hopen⟩ | ⟨hin, hover⟩
      · exact .inl ⟨List.mem_append_left _ hin, hopen⟩
      · refine .inr ⟨fun hmem => ?_, hover⟩
        rcases List.mem_append.mp hmem with hmem | hmem
        · exact hin hmem
        · exact lt_irrefl _ (hlt e he e hmem)
    · refine .inl ⟨List.mem_append_right _ he, ?_⟩
      have hnil : stream st.entries e.ticket = [] :=
        h.stream_eq_nil fun e' he' => (hlt e' he' e he).ne
      show Stream.Open Cqe.more (stream st.entries e.ticket)
      rw [hnil]
      exact Stream.open_nil
  · rw [hresults]
    exact h.results x
  · rw [hnext]
    rcases List.mem_append.mp he with he | he
    · exact Nat.lt_succ_of_lt (h.fresh e he)
    · rw [hnew e he]
      exact Nat.lt_succ_self _
  · rw [hinflight] at he
    rcases List.mem_append.mp he with he | he
    · exact List.mem_append_left _ (h.inflight e he)
    · exact List.mem_append_right _ he

/-- **An entry of the kernel.** The stream of its slot goes on, or is over with it. -/
theorem inv_post (h : Inv ops st) {c : Completion} {r : Queue Res × Cqe}
    (hpost : st.queue.post c = some r) :
    Inv ops { st with queue := r.1, entries := st.entries ++ [r.2] } := by
  obtain ⟨q, cqe⟩ := r
  obtain ⟨hslot, rfl⟩ := Queue.post_spec hpost
  have htaken : cqe.slot ∈ st.taken := h.inflight _ hslot
  have hopen : Stream.Open Cqe.more (stream st.entries cqe.ticket) := by
    rcases h.streams _ htaken with ⟨-, hopen⟩ | ⟨hnot, -⟩
    · exact hopen
    · exact absurd hslot hnot
  refine ⟨⟨h.slots, h.distinct, ?_, fun c hc => ?_, fun e he => ?_, h.results⟩, h.fresh,
    fun e he => ?_⟩
  · show st.delivered ++ (st.queue.cq ++ [cqe]) = st.entries ++ [cqe]
    rw [← List.append_assoc, h.order]
  · rcases List.mem_append.mp hc with hc | hc
    · exact h.own c hc
    · rw [List.mem_singleton.mp hc]
      exact htaken
  · simp only [stream_concat]
    by_cases hmore : cqe.more = true
    · -- everything stays in flight
      rw [if_pos hmore]
      by_cases ht : cqe.ticket = e.ticket
      · obtain rfl : cqe.slot = e := h.slot_inj htaken he ht
        rw [if_pos ht]
        exact .inl ⟨hslot, hopen.concat hmore⟩
      · rw [if_neg ht]
        exact h.streams e he
    · rw [if_neg hmore]
      by_cases ht : cqe.ticket = e.ticket
      · obtain rfl : cqe.slot = e := h.slot_inj htaken he ht
        rw [if_pos ht]
        refine .inr ⟨fun hin => ?_, hopen.finish (by simpa using hmore)⟩
        have := (List.mem_filter.mp hin).2
        exact absurd rfl (bne_iff_ne.mp this)
      · rw [if_neg ht]
        have hiff : e ∈ st.queue.inflight.filter (fun e => e.ticket != cqe.ticket) ↔
            e ∈ st.queue.inflight := by
          rw [List.mem_filter, bne_iff_ne]
          exact and_iff_left (Ne.symm ht)
        rw [hiff]
        exact h.streams e he
  · refine h.inflight e ?_
    have he' : e ∈ (if cqe.more then st.queue.inflight
        else st.queue.inflight.filter fun e => e.ticket != cqe.ticket) := he
    split at he'
    · exact he'
    · exact List.mem_of_mem_filter he'

theorem inv_deliver (h : Inv ops st) {ev : ℤ}
    (hs : st.deliver ops (st.queue.waitForResult ev) = some st') : Inv ops st' := by
  rcases hw : st.queue.waitForResult ev with _ | ⟨q, r⟩
  · rw [hw] at hs; cases hs
  · rw [hw] at hs
    rcases Queue.waitForResult_cases hw with ⟨-, rfl, rfl⟩ | ⟨-, c, rest, hcq, rfl, rfl⟩
    · obtain rfl := Option.some.inj hs
      exact h
    · obtain rfl := Option.some.inj hs
      refine ⟨⟨h.slots, h.distinct, ?_, h.own, h.streams, fun x => ?_⟩, h.fresh, h.inflight⟩
      · show (st.delivered ++ [c]) ++ rest = st.entries
        rw [← h.order, hcq, List.append_assoc]
        rfl
      · show Function.update st.queue.results c.userData _ x = _
        rw [List.filter_append]
        by_cases hx : c.userData = x
        · subst hx
          rw [Function.update_self]
          simp
        · rw [Function.update_of_ne (Ne.symm hx), h.results x]
          simp [hx]

theorem inv_step {e : Event} (h : Inv ops st) (hs : st.step ops e = some st') : Inv ops st' := by
  cases e with
  | submit x ev =>
    obtain ⟨-, hs⟩ := Option.ite_none_right_eq_some.mp hs
    obtain rfl := Option.some.inj hs
    exact inv_submit h x ev
  | post c =>
    obtain ⟨r, hr, rfl⟩ := Option.map_eq_some_iff.mp hs
    exact inv_post h hr
  | fetch ev =>
    rw [step, Queue.fetchResult_eq] at hs
    exact inv_deliver h hs
  | wait ev => exact inv_deliver h hs

/-! ### Runs -/

/-- **Completions are delivered once, in order, and to their own operation**: in every state that a
ring can reach, whatever `io_uring_submit` returns, in whatever order the kernel completes and with
whatever mixture of `fetch_result` and `wait_for_result` the program takes the entries. -/
theorem delivers_of_reachable {n : ℕ} (h : Reachable (step ops) (init n) st) : Delivers ops st :=
  (h.induction (fun _ _ _ hI hs => inv_step hI hs) (inv_init n)).toDelivers

/-- Operations whose result is what the kernel returns for them. -/
def echo : Operations ℤ := ⟨fun _ => true, fun _ res _ => .ok res⟩

/-- Operation 2 posts two entries; operation 1, which was submitted first, completes between them. -/
def interleaved : List Event :=
  [.submit 1 1, .submit 2 1, .post ⟨1, 5, 2⟩, .post ⟨0, 7, 0⟩, .wait 0, .fetch (-11), .post ⟨1, 6, 0⟩,
    .fetch 0, .wait 0]

theorem delivers_of_reachable_interleaved : ∃ st, run (step echo) (init 8) interleaved = some st ∧
    st.delivered.map Cqe.ticket = [1, 0, 1] ∧ Delivers echo st :=
  ⟨_, rfl, rfl, delivers_of_reachable (n := 8) ⟨interleaved, rfl⟩⟩

/-- **Nothing is lost**: once no slot is queued, nothing is in flight and no entry waits to be taken,
every slot that was ever reserved has had its whole stream delivered. -/
theorem nothing_lost {n : ℕ} (h : Reachable (step ops) (init n) st) (hsq : st.queue.sq = [])
    (hinflight : st.queue.inflight = []) (hcq : st.queue.cq = []) :
    ∀ e ∈ st.reserved, Stream.Over Cqe.more (stream st.delivered e.ticket) := by
  have hd := delivers_of_reachable h
  intro e he
  have htaken : e ∈ st.taken := by
    rw [← hd.slots, hsq, List.append_nil] at he
    exact he
  have horder : st.delivered = st.entries := by
    rw [← hd.order, hcq, List.append_nil]
  rw [horder]
  rcases hd.streams e htaken with ⟨hin, -⟩ | ⟨-, hover⟩
  · rw [hinflight] at hin
    exact absurd hin List.not_mem_nil
  · exact hover

theorem nothing_lost_interleaved : ∃ st, run (step echo) (init 8) interleaved = some st ∧
    ∀ e ∈ st.reserved, Stream.Over Cqe.more (stream st.delivered e.ticket) :=
  ⟨_, rfl, nothing_lost (show Reachable (step echo) (init 8) _ from ⟨interleaved, rfl⟩) rfl rfl rfl⟩

end Traffic

end Iouxx.Ring
