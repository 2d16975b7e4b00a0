/-
Which reply a request is answered with.

Replies carry the code of their request and nothing else of it, and the client takes
the first that has the code it waits for. Over a channel that keeps the order, a
request under some code is therefore answered with its own reply as long as none
before it under that code was given up; after one was, the reply that came too late
stands in front of the next one, and is taken for it (`stale_reply_taken`).

The socket may refuse a request, and its waits may end in a fault; such a request is given
up like one that waited too long, and only the faults that were met are told.

`Underway` follows the replies that are on their way, each with the request that it
answers: they stand in the order of the requests, behind all that were taken, and under
each of their codes a request was given up. One request keeps this (`Underway.late` and
`Underway.taken`).
-/
import ControlPlane.Proofs.Datagram.Listing
import Mathlib.Data.List.Induction

namespace ControlPlane.Client

open Wire (Message Reply)

/-- What becomes of a request. -/
inductive Course where
  /-- The socket refuses it. -/
  | refused (fault : HostFault)
  /-- It is sent. This is the engine's reply to it, if the engine gets it, and what the waits
  at the socket end with before the client gives the request up: with the next of the replies
  that are on their way, or with a fault. -/
  | sent (reply : Option Reply) (waits : List (Option HostFault))

/-- A request of a client, and what becomes of it. -/
structure Turn where
  request : Message
  course : Course

/-- What arrives while there are waits, and what is on its way still. -/
def arrive : List Bytes → List (Option HostFault) → List Arrival × List Bytes
  | way, [] => ([], way)
  | way, some fault :: waits =>
    let (arrived, way) := arrive way waits
    (.error fault :: arrived, way)
  | [], none :: waits => arrive [] waits
  | datagram :: way, none :: waits =>
    let (arrived, way) := arrive way waits
    (.ok datagram :: arrived, way)

namespace Turn

/-- The engine's reply. There is none to a request that is not sent. -/
def reply (t : Turn) : Option Reply :=
  match t.course with
  | .refused _ => none
  | .sent reply _ => reply

/-- The faults that are met. -/
def faults (t : Turn) : List HostFault :=
  match t.course with
  | .refused fault => [fault]
  | .sent _ waits => waits.filterMap id

/-- A channel that keeps the order of replies: the reply goes in, and some come out. -/
def peer (t : Turn) : Peer (List Bytes) := fun way _ =>
  match t.course with
  | .refused fault => (way, .error fault)
  | .sent reply waits =>
    let (arrived, way) := arrive (way ++ reply.toList.map fun r => (r.toMessage t.request.code).encode) waits
    (way, .ok arrived)

/-- The reply is one that fits into a message. -/
def Fits (t : Turn) : Prop := ∀ r, t.reply = some r → r.record.length + 2 ≤ maxPayload

end Turn

/-- What a call came to, and the client after it. -/
def outcome {σ α : Type} : EStateM.Result Error (Client σ) α → Except Error α × Client σ
  | .ok a c => (.ok a, c)
  | .error error c => (.error error, c)

/-- Requests one after the other: what each came to, and the client after them. -/
def exchange (c : Client (List Bytes)) (turns : List Turn) : List (Except Error Reply) × Client (List Bytes) :=
  turns.foldl
    (fun (results, c) t =>
      let (result, c) := outcome (send t.peer t.request c)
      (results ++ [result], c))
    ([], c)

/-- What an engine answers to requests, each at an instant, when the socket meets no fault:
so many of the replies on their way arrive before the request is given up. -/
def answeredBy (client : ClientId) (e : Engine) : List (Message × Nat × Nat) → List Turn
  | [] => []
  | (request, now, arrivals) :: rest =>
    let o := e.dispatch client request now
    { request, course := .sent (some o.reply) (List.replicate arrivals none) } :: answeredBy client o.engine rest

variable {c : Client (List Bytes)} {turns : List Turn} {t : Turn}

@[simp] theorem outcome_settle {σ α : Type} (x : Except Error α) (c : Client σ) :
    outcome (settle x c) = (x, c) := by
  cases x <;> rfl

/-- A request that the socket refuses fails, and nothing is sent. -/
theorem outcome_send_of_refused {σ : Type} {peer : Peer σ} {c : Client σ} {m : Message} {world : σ}
    {fault : HostFault} (refused : peer c.world m.encode = (world, .error fault)) :
    outcome (send peer m c) = (.error (.host fault), { c with world }) := by
  simp only [send, refused, outcome_settle]

/-- A request that the socket takes is sent, once, and its reply is waited for. -/
theorem outcome_send_of_taken {σ : Type} {peer : Peer σ} {c : Client σ} {m : Message} {world : σ}
    {arrived : List Arrival} (taken : peer c.world m.encode = (world, .ok arrived)) :
    outcome (send peer m c) =
      let awaited := awaitReply m.code c.timeout (c.inbox ++ arrived)
      (awaited.1, { c with world, inbox := awaited.2, sent := c.sent ++ [m.encode] }) := by
  simp only [send, taken, outcome_settle]

theorem exchange_concat (c : Client (List Bytes)) (turns : List Turn) (t : Turn) :
    exchange c (turns ++ [t]) =
      ((exchange c turns).1 ++ [(outcome (send t.peer t.request (exchange c turns).2)).1],
        (outcome (send t.peer t.request (exchange c turns).2)).2) := by
  simp only [exchange, List.foldl_append, List.foldl_cons, List.foldl_nil]

/-! ## Replies on their way -/

/-- A reply on its way, with the request that it answers. -/
structure Flight where
  index : Nat
  turn : Turn
  reply : Reply

namespace Flight

def message (p : Flight) : Message := p.reply.toMessage p.turn.request.code

/-- The reply of one more request, behind all others. -/
def own (index : Nat) (t : Turn) : List Flight := t.reply.toList.map fun reply => ⟨index, t, reply⟩

theorem mem_own {index : Nat} {p : Flight} :
    p ∈ own index t ↔ p.index = index ∧ p.turn = t ∧ t.reply = some p.reply := by
  obtain ⟨i, u, r⟩ := p
  cases h : t.reply with
  | none => simp [own, h]
  | some r' =>
    simp only [own, h, Option.toList_some, List.map_cons, List.map_nil, List.mem_singleton,
      Flight.mk.injEq, Option.some.injEq]
    constructor
    · rintro ⟨rfl, rfl, rfl⟩
      exact ⟨rfl, rfl, rfl⟩
    · rintro ⟨rfl, rfl, rfl⟩
      exact ⟨rfl, rfl, rfl⟩

end Flight

/-- The datagrams of replies. -/
def datagrams (flights : List Flight) : List Bytes := flights.map fun p => p.message.encode

/-- The datagrams among what arrived. -/
def received (arrivals : List Arrival) : List Bytes := arrivals.filterMap Except.toOption

/-- Nothing is lost and nothing overtaken between the way and the client. -/
theorem received_arrive (way : List Bytes) (waits : List (Option HostFault)) :
    received (arrive way waits).1 ++ (arrive way waits).2 = way := by
  fun_induction arrive way waits with
  | case1 way => rfl
  | case2 way fault waits arrived way' split ih =>
    rw [split] at ih
    exact ih
  | case3 waits ih => exact ih
  | case4 datagram way waits arrived way' split ih =>
    rw [split] at ih
    exact congrArg (datagram :: ·) ih

/-- The faults that arrive are those of the waits. -/
theorem mem_waits_of_arrive {way : List Bytes} {waits : List (Option HostFault)} {fault : HostFault}
    (h : .error fault ∈ (arrive way waits).1) : some fault ∈ waits := by
  fun_induction arrive way waits with
  | case1 way => cases h
  | case2 way fault' waits arrived way' split ih =>
    rw [split] at ih
    rcases List.mem_cons.1 h with same | later
    · cases same
      exact List.mem_cons_self
    · exact List.mem_cons_of_mem _ (ih later)
  | case3 waits ih => exact List.mem_cons_of_mem _ (ih h)
  | case4 datagram way waits arrived way' split ih =>
    rw [split] at ih
    rcases List.mem_cons.1 h with same | later
    · cases same
    · exact List.mem_cons_of_mem _ (ih later)

/-- What a client that waits for the reply to a code comes to, with replies on their way and
faults that may be met, and the replies that it leaves. -/
inductive Awaited (code : UInt16) (timeout : Nat) (met : HostFault → Prop) (flights : List Flight) :
    Except Error Reply → List Flight → Prop
  | late {passed kept : List Flight} (split : flights = passed ++ kept) :
      Awaited code timeout met flights (.error (.timeout timeout)) kept
  | fault {passed kept : List Flight} {fault : HostFault} (split : flights = passed ++ kept) (here : met fault) :
      Awaited code timeout met flights (.error (.host fault)) kept
  | reply {passed kept : List Flight} {p : Flight} (split : flights = passed ++ p :: kept)
      (same : p.turn.request.code = code) : Awaited code timeout met flights (.ok p.reply) kept

namespace Awaited

variable {code : UInt16} {timeout : Nat} {met met' : HostFault → Prop} {flights kept : List Flight}
  {result : Except Error Reply}

theorem imp (h : Awaited code timeout met flights result kept) (weaker : ∀ fault, met fault → met' fault) :
    Awaited code timeout met' flights result kept := by
  cases h with
  | late split => exact .late split
  | fault split here => exact .fault split (weaker _ here)
  | reply split same => exact .reply split same

/-- A reply in front may be passed over. -/
theorem cons (h : Awaited code timeout met flights result kept) (p : Flight) :
    Awaited code timeout met (p :: flights) result kept := by
  cases h with
  | late split => exact .late (by rw [split, List.cons_append])
  | fault split here => exact .fault (by rw [split, List.cons_append]) here
  | reply split same => exact .reply (by rw [split, List.cons_append]) same

/-- What is behind is kept. -/
theorem append (h : Awaited code timeout met flights result kept) (later : List Flight) :
    Awaited code timeout met (flights ++ later) result (kept ++ later) := by
  cases h with
  | late split => exact .late (by rw [split, List.append_assoc])
  | fault split here => exact .fault (by rw [split, List.append_assoc]) here
  | reply split same => exact .reply (by rw [split, List.append_assoc, List.cons_append]) same

end Awaited

/-- The client takes the first reply under the code, or ends at the first fault, or finds
neither. -/
theorem awaited_awaitReply (code : UInt16) (timeout : Nat) {arrived : List Arrival} {flights : List Flight}
    (read : received arrived = datagrams flights)
    (room : ∀ p ∈ flights, p.reply.record.length + 2 ≤ maxPayload) :
    ∃ kept, received (awaitReply code timeout arrived).2 = datagrams kept ∧
      (awaitReply code timeout arrived).2 <:+ arrived ∧
      Awaited code timeout (fun fault => .error fault ∈ arrived) flights
        (awaitReply code timeout arrived).1 kept := by
  induction arrived generalizing flights with
  | nil => exact ⟨[], rfl, List.suffix_rfl, .late (List.append_nil flights).symm⟩
  | cons first arrived ih =>
    cases first with
    | error fault =>
      exact ⟨flights, read, List.suffix_cons .., .fault (List.nil_append flights).symm List.mem_cons_self⟩
    | ok datagram =>
      obtain ⟨p, rest, rfl, rfl, others⟩ := List.map_eq_cons_iff.1 read.symm
      have decoded : Message.decode (p.message.encode.take Wire.maxDatagram) = .ok p.message :=
        decode_toMessage (room p List.mem_cons_self) p.turn.request.code
      by_cases same : p.turn.request.code = code
      · subst same
        have taken : awaitReply p.turn.request.code timeout (.ok p.message.encode :: arrived) =
            (.ok p.reply, arrived) := by
          rw [← Reply.ofMessage_toMessage p.reply p.turn.request.code]
          exact awaitReply_of_eq decoded
        rw [taken]
        exact ⟨rest, others.symm, List.suffix_cons .., .reply (List.nil_append (p :: rest)).symm rfl⟩
      · rw [awaitReply_of_ne decoded same]
        obtain ⟨kept, left, suffix, awaited⟩ := ih others.symm fun q hq => room q (List.mem_cons_of_mem _ hq)
        exact ⟨kept, left, suffix.trans (List.suffix_cons ..),
          (awaited.cons p).imp fun fault here => List.mem_cons_of_mem _ here⟩

/-- The faults that a request may meet: those in the inbox, and its own. -/
def Meets (c : Client (List Bytes)) (t : Turn) (fault : HostFault) : Prop :=
  .error fault ∈ c.inbox ∨ fault ∈ t.faults

/-- What one request does to the replies on their way: some are passed over, and the
first under its code among those that arrive is taken, unless a fault is met first. -/
theorem send_flights {flights : List Flight} {index : Nat}
    (channel : received c.inbox ++ c.world = datagrams flights)
    (room : ∀ p ∈ flights ++ Flight.own index t, p.reply.record.length + 2 ≤ maxPayload) :
    ∃ result c', outcome (send t.peer t.request c) = (result, c') ∧ c'.timeout = c.timeout ∧
      (∀ fault, .error fault ∈ c'.inbox → Meets c t fault) ∧
      ∃ kept, received c'.inbox ++ c'.world = datagrams kept ∧
        Awaited t.request.code c.timeout (Meets c t) (flights ++ Flight.own index t) result kept := by
  obtain ⟨request, course⟩ := t
  cases course with
  | refused fault =>
    refine ⟨_, _, outcome_send_of_refused rfl, rfl, fun fault' here => .inl here, flights, channel, ?_⟩
    exact .fault ((List.append_nil flights).trans (List.nil_append flights).symm) (.inr List.mem_cons_self)
  | sent reply waits =>
    let all := c.world ++ reply.toList.map fun r => (r.toMessage request.code).encode
    have own : datagrams (Flight.own index ⟨request, .sent reply waits⟩) =
        reply.toList.map fun r => (r.toMessage request.code).encode := by
      rw [datagrams, Flight.own, List.map_map]
      rfl
    -- what has arrived by then, and what is still on its way
    have both : datagrams (flights ++ Flight.own index ⟨request, .sent reply waits⟩) =
        received (c.inbox ++ (arrive all waits).1) ++ (arrive all waits).2 := by
      rw [received, List.filterMap_append, List.append_assoc]
      show _ = received c.inbox ++ (received (arrive all waits).1 ++ (arrive all waits).2)
      rw [received_arrive, ← List.append_assoc, channel, ← own]
      exact List.map_append
    obtain ⟨arrived, later, split, here, there⟩ := List.map_eq_append_iff.1 both
    have room' : ∀ p ∈ arrived, p.reply.record.length + 2 ≤ maxPayload :=
      fun p hp => room p (split ▸ List.mem_append_left _ hp)
    obtain ⟨kept, left, suffix, awaited⟩ := awaited_awaitReply request.code c.timeout here.symm room'
    have met (fault : HostFault) (hf : .error fault ∈ c.inbox ++ (arrive all waits).1) :
        Meets c ⟨request, .sent reply waits⟩ fault := by
      rcases List.mem_append.1 hf with before | new
      · exact .inl before
      · exact .inr (List.mem_filterMap.2 ⟨some fault, mem_waits_of_arrive new, rfl⟩)
    refine ⟨_, _, outcome_send_of_taken rfl, rfl, fun fault hf => met fault (suffix.subset hf),
      kept ++ later, ?_, ?_⟩
    · show received (awaitReply request.code c.timeout _).2 ++ (arrive all waits).2 = _
      rw [left, ← there]
      exact List.map_append.symm
    · rw [split]
      exact (awaited.append later).imp met

/-! ## What is on its way between two requests -/

/-- The request with a number was given up. -/
def GivenUp (sources : List (Option Nat)) (k : Nat) : Prop := sources[k]? = some none

/-- Under a code some request before a number was given up, though the engine answered it. -/
def Overdue (turns : List Turn) (sources : List (Option Nat)) (code : UInt16) (i : Nat) : Prop :=
  ∃ k u, k < i ∧ turns[k]? = some u ∧ u.request.code = code ∧ u.reply.isSome ∧ GivenUp sources k

/-- A fault was met, at some request up to a number. -/
def Met (turns : List Turn) (i : Nat) (fault : HostFault) : Prop :=
  ∃ k u, k ≤ i ∧ turns[k]? = some u ∧ fault ∈ u.faults

/-- What a request was answered with: with nothing in time, with a fault that was met, or
with the reply to a request under its code. That is its own or an earlier one, and an earlier
one only where a request under the code had been given up. -/
inductive Result (timeout : Nat) (turns : List Turn) (sources : List (Option Nat)) (i : Nat) :
    Option Nat → Except Error Reply → Prop
  | late : Result timeout turns sources i none (.error (.timeout timeout))
  | fault {fault : HostFault} (met : Met turns i fault) : Result timeout turns sources i none (.error (.host fault))
  | reply {j : Nat} {t u : Turn} {r : Reply} (asked : turns[i]? = some t) (answered : turns[j]? = some u)
      (code : u.request.code = t.request.code) (given : u.reply = some r) (before : j ≤ i)
      (overdue : j < i → Overdue turns sources t.request.code i) :
      Result timeout turns sources i (some j) (.ok r)

/-- The replies that are on their way after some requests, and those that these were
answered with. -/
structure Underway (turns : List Turn) (sources : List (Option Nat)) (flights : List Flight) : Prop where
  length : sources.length = turns.length
  known : ∀ p ∈ flights, turns[p.index]? = some p.turn ∧ p.turn.reply = some p.reply
  ascending : flights.Pairwise fun p q => p.index < q.index
  behind : ∀ j, some j ∈ sources → j < turns.length ∧ ∀ p ∈ flights, j < p.index
  order : (sources.filterMap id).Pairwise (· < ·)
  overdue : ∀ p ∈ flights, Overdue turns sources p.turn.request.code turns.length

variable {sources : List (Option Nat)} {flights kept : List Flight}

/-- What stands at a place stays there when something comes behind it. -/
theorem getElem?_concat {α : Type} {xs : List α} {i : Nat} {x : α} (h : xs[i]? = some x) (y : α) :
    (xs ++ [y])[i]? = some x := by
  rw [List.getElem?_append_left (List.getElem?_eq_some_iff.1 h).1]
  exact h

theorem Overdue.concat {code : UInt16} {i : Nat} (h : Overdue turns sources code i) (t : Turn) (s : Option Nat) :
    Overdue (turns ++ [t]) (sources ++ [s]) code i := by
  obtain ⟨k, u, before, there, same, answered, givenUp⟩ := h
  exact ⟨k, u, before, getElem?_concat there t, same, answered, getElem?_concat givenUp s⟩

theorem Overdue.mono {code : UInt16} {i j : Nat} (h : Overdue turns sources code i) (le : i ≤ j) :
    Overdue turns sources code j := by
  obtain ⟨k, u, before, there⟩ := h
  exact ⟨k, u, Nat.lt_of_lt_of_le before le, there⟩

theorem Met.concat {i : Nat} {fault : HostFault} (h : Met turns i fault) (t : Turn) : Met (turns ++ [t]) i fault := by
  obtain ⟨k, u, le, there, here⟩ := h
  exact ⟨k, u, le, getElem?_concat there t, here⟩

theorem Met.mono {i j : Nat} {fault : HostFault} (h : Met turns i fault) (le : i ≤ j) : Met turns j fault := by
  obtain ⟨k, u, before, there⟩ := h
  exact ⟨k, u, Nat.le_trans before le, there⟩

theorem Result.concat {timeout i : Nat} {s : Option Nat} {result : Except Error Reply}
    (h : Result timeout turns sources i s result) (t : Turn) (s' : Option Nat) :
    Result timeout (turns ++ [t]) (sources ++ [s']) i s result := by
  cases h with
  | late => exact .late
  | fault met => exact .fault (met.concat t)
  | reply asked answered code given before overdue =>
    exact .reply (getElem?_concat asked t) (getElem?_concat answered t) code given before fun earlier =>
      (overdue earlier).concat t s'

/-! ## One request more -/

/-- With the reply of one more request behind the others. -/
structure Queued (turns : List Turn) (sources : List (Option Nat)) (queue : List Flight) : Prop where
  known : ∀ p ∈ queue, turns[p.index]? = some p.turn ∧ p.turn.reply = some p.reply
  ascending : queue.Pairwise fun p q => p.index < q.index
  behind : ∀ j, some j ∈ sources → ∀ p ∈ queue, j < p.index

theorem Underway.queued (h : Underway turns sources flights) (t : Turn) :
    Queued (turns ++ [t]) sources (flights ++ Flight.own turns.length t) where
  known := by
    intro p hp
    rcases List.mem_append.1 hp with old | new
    · obtain ⟨asked, given⟩ := h.known p old
      exact ⟨getElem?_concat asked t, given⟩
    · obtain ⟨index, turn, given⟩ := Flight.mem_own.1 new
      rw [index, turn, List.getElem?_concat_length]
      exact ⟨rfl, given⟩
  ascending := by
    refine List.pairwise_append.2 ⟨h.ascending, ?_, ?_⟩
    · unfold Flight.own
      cases t.reply with
      | none => exact .nil
      | some r => exact List.pairwise_singleton ..
    · intro p hp q hq
      rw [(Flight.mem_own.1 hq).1]
      exact (List.getElem?_eq_some_iff.1 (h.known p hp).1).1
  behind := by
    intro j hj p hp
    obtain ⟨before, ahead⟩ := h.behind j hj
    rcases List.mem_append.1 hp with old | new
    · exact ahead p old
    · rw [(Flight.mem_own.1 new).1]
      exact before

/-- A request that finds no reply is given up, and excuses all that is still on its way
under its code. -/
theorem Underway.late (h : Underway turns sources flights) {passed : List Flight}
    (split : flights ++ Flight.own turns.length t = passed ++ kept) :
    Underway (turns ++ [t]) (sources ++ [none]) kept := by
  have queued := h.queued t
  rw [split] at queued
  have mem : ∀ p ∈ kept, p ∈ passed ++ kept := fun p hp => List.mem_append_right _ hp
  have old : ∀ j, some j ∈ sources ++ [none] → some j ∈ sources := by
    intro j hj
    rcases List.mem_append.1 hj with hj | hj
    · exact hj
    · cases List.mem_singleton.1 hj
  refine ⟨?_, fun p hp => queued.known p (mem p hp), (List.pairwise_append.1 queued.ascending).2.1, ?_, ?_, ?_⟩
  · simp only [List.length_append, h.length, List.length_singleton]
  · intro j hj
    have before := (h.behind j (old j hj)).1
    refine ⟨?_, fun p hp => queued.behind j (old j hj) p (mem p hp)⟩
    rw [List.length_append, List.length_singleton]
    omega
  · rw [List.filterMap_append]
    simpa using h.order
  · intro p hp
    have here : turns.length < (turns ++ [t]).length := by simp
    rcases List.mem_append.1 (split ▸ mem p hp) with before | own
    · exact ((h.overdue p before).concat t none).mono (Nat.le_of_lt here)
    · obtain ⟨-, turn, given⟩ := Flight.mem_own.1 own
      refine ⟨turns.length, t, here, List.getElem?_concat_length, by rw [turn], by rw [given]; rfl, ?_⟩
      rw [GivenUp, ← h.length]
      exact List.getElem?_concat_length

/-- A request that finds a reply under its code takes it, and what was in front of it is
gone. -/
theorem Underway.taken (h : Underway turns sources flights) {passed : List Flight} {p : Flight}
    (split : flights ++ Flight.own turns.length t = passed ++ p :: kept)
    (code : p.turn.request.code = t.request.code) (timeout : Nat) :
    Underway (turns ++ [t]) (sources ++ [some p.index]) kept ∧
      Result timeout (turns ++ [t]) (sources ++ [some p.index]) turns.length (some p.index) (.ok p.reply) := by
  have queued := h.queued t
  rw [split] at queued
  have first : p ∈ passed ++ p :: kept := List.mem_append_right _ List.mem_cons_self
  have mem : ∀ q ∈ kept, q ∈ passed ++ p :: kept :=
    fun q hq => List.mem_append_right _ (List.mem_cons_of_mem _ hq)
  obtain ⟨behind, ascending⟩ := List.pairwise_cons.1 (List.pairwise_append.1 queued.ascending).2.1
  obtain ⟨asked, given⟩ := queued.known p first
  have within : p.index < (turns ++ [t]).length := (List.getElem?_eq_some_iff.1 asked).1
  rw [List.length_append, List.length_singleton] at within
  -- a reply of an earlier request is there only because some request was given up
  have overdue (earlier : p.index < turns.length) :
      Overdue (turns ++ [t]) (sources ++ [some p.index]) t.request.code turns.length := by
    rcases List.mem_append.1 (split ▸ first) with before | own
    · rw [← code]
      exact (h.overdue p before).concat t (some p.index)
    · rw [(Flight.mem_own.1 own).1] at earlier
      exact absurd earlier (Nat.lt_irrefl _)
  constructor
  · refine ⟨?_, fun q hq => queued.known q (mem q hq), ascending, ?_, ?_, ?_⟩
    · simp only [List.length_append, h.length, List.length_singleton]
    · intro j hj
      rw [List.length_append, List.length_singleton]
      rcases List.mem_append.1 hj with hj | hj
      · have before := (h.behind j hj).1
        exact ⟨by omega, fun q hq => queued.behind j hj q (mem q hq)⟩
      · obtain rfl : j = p.index := Option.some.inj (List.mem_singleton.1 hj)
        exact ⟨within, behind⟩
    · rw [List.filterMap_append, List.pairwise_append]
      refine ⟨h.order, List.pairwise_singleton .., ?_⟩
      intro j hj k hk
      obtain ⟨_, hs, rfl⟩ := List.mem_filterMap.1 hj
      obtain rfl : k = p.index := by simpa using hk
      exact queued.behind j hs p first
    · intro q hq
      have excused : Overdue (turns ++ [t]) (sources ++ [some p.index]) q.turn.request.code turns.length := by
        rcases List.mem_append.1 (split ▸ mem q hq) with before | own
        · exact (h.overdue q before).concat t _
        · -- behind the reply that was taken, so that one was not this request's
          obtain ⟨index, turn, -⟩ := Flight.mem_own.1 own
          rw [turn]
          exact overdue (index ▸ behind q hq)
      exact excused.mono (by simp)
  · have asker : (turns ++ [t])[turns.length]? = some t := List.getElem?_concat_length
    exact .reply asker asked code given (Nat.le_of_lt_succ within) overdue

/-! ## All requests -/

theorem underway_nil : Underway [] [] [] where
  length := rfl
  known := by intro p hp; cases hp
  ascending := .nil
  behind := by intro j hj; cases hj
  order := .nil
  overdue := by intro p hp; cases hp

/-- What some requests of a new client came to, and what is on its way after them. -/
structure Exchanged (c : Client (List Bytes)) (turns : List Turn) (sources : List (Option Nat))
    (flights : List Flight) : Prop where
  underway : Underway turns sources flights
  channel : received (exchange c turns).2.inbox ++ (exchange c turns).2.world = datagrams flights
  faults : ∀ fault, .error fault ∈ (exchange c turns).2.inbox → Met turns turns.length fault
  timeout : (exchange c turns).2.timeout = c.timeout
  length : (exchange c turns).1.length = turns.length
  results : ∀ i result, (exchange c turns).1[i]? = some result →
    ∃ s, sources[i]? = some s ∧ Result c.timeout turns sources i s result

theorem Exchanged.step (h : Exchanged c turns sources flights) (known : ∀ t ∈ turns, t.Fits) (fits : t.Fits) :
    ∃ s kept, Exchanged c (turns ++ [t]) (sources ++ [s]) kept := by
  have room : ∀ p ∈ flights ++ Flight.own turns.length t, p.reply.record.length + 2 ≤ maxPayload := by
    intro p hp
    rcases List.mem_append.1 hp with old | new
    · obtain ⟨asked, given⟩ := h.underway.known p old
      exact known p.turn (List.mem_of_getElem? asked) p.reply given
    · exact fits p.reply (Flight.mem_own.1 new).2.2
  obtain ⟨result, c', sent, timeout, left, kept, channel, awaited⟩ := send_flights h.channel room
  have after : exchange c (turns ++ [t]) = ((exchange c turns).1 ++ [result], c') := by
    rw [exchange_concat, sent]
  have met : ∀ fault, Meets (exchange c turns).2 t fault → Met (turns ++ [t]) turns.length fault := by
    rintro fault (before | own)
    · exact (h.faults fault before).concat t
    · exact ⟨turns.length, t, Nat.le_refl _, List.getElem?_concat_length, own⟩
  -- all ways leave the results before this one as they were
  have extend {s : Option Nat} (underway : Underway (turns ++ [t]) (sources ++ [s]) kept)
      (last : Result c.timeout (turns ++ [t]) (sources ++ [s]) turns.length s result) :
      Exchanged c (turns ++ [t]) (sources ++ [s]) kept := by
    refine ⟨underway, by rw [after]; exact channel, fun fault hf => ?_, by rw [after]; exact timeout.trans h.timeout,
      ?_, ?_⟩
    · rw [after] at hf
      exact (met fault (left fault hf)).mono (by simp)
    · rw [after, List.length_append, List.length_append, h.length, List.length_singleton, List.length_singleton]
    · intro i result' hi
      rw [after] at hi
      by_cases before : i < turns.length
      · rw [List.getElem?_append_left (by rw [h.length]; exact before)] at hi
        obtain ⟨s', there, came⟩ := h.results i result' hi
        exact ⟨s', getElem?_concat there s, came.concat t s⟩
      · have bound := (List.getElem?_eq_some_iff.1 hi).1
        rw [List.length_append, h.length, List.length_singleton] at bound
        obtain rfl : i = turns.length := by omega
        rw [← h.length, List.getElem?_concat_length] at hi
        obtain rfl := Option.some.inj hi
        refine ⟨s, ?_, last⟩
        rw [← h.underway.length]
        exact List.getElem?_concat_length
  cases awaited with
  | late split =>
    refine ⟨none, kept, extend (h.underway.late split) ?_⟩
    rw [h.timeout]
    exact .late
  | fault split here => exact ⟨none, kept, extend (h.underway.late split) (.fault (met _ here))⟩
  | @reply _ _ p split code =>
    obtain ⟨underway, last⟩ := h.underway.taken split code c.timeout
    exact ⟨some p.index, kept, extend underway last⟩

theorem exchanged (inbox : c.inbox = []) (world : c.world = []) (fits : ∀ t ∈ turns, t.Fits) :
    ∃ sources flights, Exchanged c turns sources flights := by
  induction turns using List.reverseRecOn with
  | nil =>
    refine ⟨[], [], underway_nil, ?_, ?_, rfl, rfl, ?_⟩
    · show received c.inbox ++ c.world = []
      rw [inbox, world]
      rfl
    · intro fault hf
      rw [show (exchange c []).2 = c from rfl, inbox] at hf
      cases hf
    · intro i result hi
      cases hi
  | append_singleton turns t ih =>
    have known : ∀ u ∈ turns, u.Fits := fun u hu => fits u (List.mem_append_left _ hu)
    obtain ⟨sources, flights, before⟩ := ih known
    obtain ⟨s, kept, after⟩ := before.step known (fits t (List.mem_append_right _ (List.mem_singleton_self t)))
    exact ⟨sources ++ [s], kept, after⟩

/-- A request that was given up is one that came to no reply. -/
theorem Exchanged.givenUp (h : Exchanged c turns sources flights) {k : Nat} (given : GivenUp sources k) :
    ∃ error, (exchange c turns).1[k]? = some (.error error) := by
  have bound : k < (exchange c turns).1.length := by
    rw [h.length, ← h.underway.length]
    exact (List.getElem?_eq_some_iff.1 given).1
  obtain ⟨result, hk⟩ : ∃ result, (exchange c turns).1[k]? = some result :=
    ⟨_, List.getElem?_eq_getElem bound⟩
  obtain ⟨s, hs, came⟩ := h.results k result hk
  obtain rfl : none = s := Option.some.inj (given.symm.trans hs)
  cases came with
  | late => exact ⟨_, hk⟩
  | fault => exact ⟨_, hk⟩

/-! ## Main results -/

/-- **Replies are taken in order, each at most once, and under their code.** Of a new
client whose replies come over a channel that keeps their order, however late: a request
comes to a timeout, to a fault that its socket met, or to the reply to a request under its
code. That is not a later one; it is an earlier one only when some request before it, under
the code, was answered and given up; and later requests take later replies. So where no
request before it under its code was answered and given up, a request comes to its own reply
or to none. -/
theorem replies_in_order {c : Client (List Bytes)} {turns : List Turn} (inbox : c.inbox = [])
    (world : c.world = []) (fits : ∀ t ∈ turns, t.Fits) :
    (exchange c turns).1.length = turns.length ∧
    (∃ sources : List (Option Nat), (sources.filterMap id).Pairwise (· < ·) ∧
      ∀ i result, (exchange c turns).1[i]? = some result →
        ∃ s, sources[i]? = some s ∧ Result c.timeout turns sources i s result) ∧
    ∀ (i : Nat) (t : Turn) (result : Except Error Reply), turns[i]? = some t →
      (exchange c turns).1[i]? = some result →
      (∀ (k : Nat) (u : Turn), k < i → turns[k]? = some u → u.request.code = t.request.code → u.reply.isSome →
        ∀ error, (exchange c turns).1[k]? ≠ some (.error error)) →
      result = .error (.timeout c.timeout) ∨ (∃ fault, Met turns i fault ∧ result = .error (.host fault)) ∨
        ∃ r, t.reply = some r ∧ result = .ok r := by
  obtain ⟨sources, flights, h⟩ := exchanged inbox world fits
  refine ⟨h.length, ⟨sources, h.underway.order, h.results⟩, ?_⟩
  intro i t result asked came punctual
  obtain ⟨s, -, came⟩ := h.results i result came
  cases came with
  | late => exact .inl rfl
  | fault met => exact .inr (.inl ⟨_, met, rfl⟩)
  | @reply j t' u r asked' answered code given before overdue =>
    obtain rfl : t = t' := Option.some.inj (asked.symm.trans asked')
    rcases Nat.lt_or_eq_of_le before with earlier | rfl
    · obtain ⟨k, v, hk, there, same, replied, givenUp⟩ := overdue earlier
      obtain ⟨error, failed⟩ := h.givenUp givenUp
      exact absurd failed (punctual k v hk there same replied error)
    · obtain rfl : t = u := Option.some.inj (asked.symm.trans answered)
      exact .inr (.inr ⟨r, given, rfl⟩)

open Engine in
/-- A client that takes the lock twice, and waits for no reply to the first request. -/
def impatient : List Turn :=
  let lock := Small.message .lockSession .register .empty
  answeredBy Small.client Small.start [(lock, 0, 0), (lock, 0, 2)]

/-- A client that has sent nothing yet. -/
def fresh : Client (List Bytes) :=
  { world := [], inbox := [], sent := [], timeout := standardTimeout, backChannel := none }

theorem replies_in_order_small :
    (∀ t ∈ impatient, t.Fits) ∧
      ∃ sources : List (Option Nat), (sources.filterMap id).Pairwise (· < ·) ∧
        ∀ i result, (exchange fresh impatient).1[i]? = some result →
          ∃ s, sources[i]? = some s ∧ Result standardTimeout impatient sources i s result := by
  have fits : ∀ t ∈ impatient, t.Fits := by
    intro t ht r hr
    have short : ∀ t ∈ impatient, t.reply.all fun r => r.record.length + 2 ≤ maxPayload := by decide +kernel
    have := short t ht
    rw [hr] at this
    simpa using this
  exact ⟨fits, (replies_in_order rfl rfl fits).2.1⟩

/-- **A reply that comes too late is taken for that of the next request under its code.**
The engine grants the lock, and tells the client the second time that it has it; but the
second request comes to the first one's reply. -/
theorem stale_reply_taken :
    impatient.map (fun t => t.reply) = [some .ok, some (.ofStatus .alreadyLocked)] ∧
      (exchange fresh impatient).1 = [.error (.timeout standardTimeout), .ok .ok] ∧
      ¬ ∀ (i : Nat) (t : Turn) (r : Reply), impatient[i]? = some t →
        (exchange fresh impatient).1[i]? = some (.ok r) → t.reply = some r := by
  have replies : impatient.map (fun t => t.reply) = [some .ok, some (.ofStatus .alreadyLocked)] := rfl
  have results : (exchange fresh impatient).1 = [.error (.timeout standardTimeout), .ok .ok] := rfl
  refine ⟨replies, results, fun own => ?_⟩
  obtain ⟨first, _, split, -, rest⟩ := List.map_eq_cons_iff.1 replies
  obtain ⟨second, _, rfl, told, -⟩ := List.map_eq_cons_iff.1 rest
  have taken := own 1 second .ok (by rw [split]; rfl) (by rw [results]; rfl)
  rw [told] at taken
  exact absurd taken (by decide)

end ControlPlane.Client
