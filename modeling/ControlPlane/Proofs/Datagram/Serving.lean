/-
What a server does with the datagrams that come in.

A datagram is answered by what the engine answers to its message (`answer_of_message`), and
only counted if it is none (`answer_of_malformed`). As long as the socket takes what is due
(`Network.Takes`), the engine ends up as by the messages alone, but for what the socket counts
(`serve_eq`), and each datagram is counted once (`datagrams_served`).
-/
import ControlPlane.Datagram.Server
import ControlPlane.Proofs.Engine.Departure
import ControlPlane.Proofs.Engine.Requests
import ControlPlane.Proofs.Engine.SocketCounts
import ControlPlane.Proofs.Wire.RoundTrip

namespace ControlPlane

open Wire (Message)

/-! ## Sends that succeed -/

namespace Network

/-- The host takes datagrams one after the other, when a socket was given so many before. -/
def Takes (network : Network) : Nat → List Outgoing → Prop
  | _, [] => True
  | given, o :: os => network.send given o = .ok () ∧ network.Takes (given + 1) os

variable {network : Network} {given : Nat} {o : Outgoing} {os : List Outgoing}

@[simp] theorem takes_nil : network.Takes given [] := trivial

theorem takes_cons : network.Takes given (o :: os) ↔ network.send given o = .ok () ∧ network.Takes (given + 1) os :=
  Iff.rfl

/-- The host takes a sequence if it takes its parts. -/
theorem takes_append {more : List Outgoing} :
    network.Takes given (os ++ more) ↔ network.Takes given os ∧ network.Takes (given + os.length) more := by
  induction os generalizing given with
  | nil => simp
  | cons o os ih =>
    rw [List.cons_append, takes_cons, takes_cons, ih, and_assoc, List.length_cons, Nat.add_right_comm given,
      Nat.add_assoc]

instance Takes.decidable (network : Network) : (given : Nat) → (os : List Outgoing) → Decidable (network.Takes given os)
  | _, [] => .isTrue trivial
  | given, o :: os =>
    have := Takes.decidable network (given + 1) os
    inferInstanceAs (Decidable (network.send given o = .ok () ∧ network.Takes (given + 1) os))

end Network

namespace Server

/-- A datagram on its way in, and the instant at which it is taken. -/
structure Incoming where
  sender : SocketAddress
  datagram : Bytes
  now : Nat

namespace Incoming

/-- The datagram as a socket hands it over. -/
def cut (d : Incoming) : Incoming := { d with datagram := d.datagram.take Wire.maxDatagram }

/-- Its message, as an event. -/
def event? (d : Incoming) : Option Engine.Event :=
  (Message.decode d.datagram).toOption.map fun m => .message ⟨d.sender⟩ m d.now

end Incoming

/-- The messages among datagrams, in their order. -/
def accepted (arrived : List Incoming) : List Engine.Event := arrived.filterMap Incoming.event?

/-- Takes datagrams in their order: what becomes of the server, and what goes out for each. -/
def serve (s : Server) : List Incoming → Server × List (List Outgoing)
  | [] => (s, [])
  | d :: rest =>
    let (s, out) := s.answer d.sender d.datagram d.now
    let (s, others) := s.serve rest
    (s, out :: others)

variable {s : Server} {e : Engine} {malformed delivered : UInt64} {sender : SocketAddress} {datagram : Bytes}
  {now : Nat} {m : Message} {d : Incoming} {arrived : List Incoming}

/-! ## One datagram -/

theorem answer_take (s : Server) (sender : SocketAddress) (datagram : Bytes) (now : Nat) :
    s.answer sender (datagram.take Wire.maxDatagram) now = s.answer sender datagram now := by
  simp only [answer, Engine.receive, Message.decode_take]

/-- Events that the socket takes are sent, and counted. -/
theorem deliver_eq {ns : List Notification} (taken : s.network.Takes s.given (ns.map Notification.outgoing)) :
    s.deliver ns =
      ({ s with engine := s.engine.count .delivered (.ofNat ns.length), given := s.given + ns.length },
        ns.map Notification.outgoing) := by
  induction ns generalizing s with
  | nil => simp [deliver, Engine.count, Metrics.add]
  | cons n ns ih =>
    obtain ⟨here, rest⟩ := Network.takes_cons.1 taken
    have one : s.deliverOne n =
        ({ s with engine := s.engine.count .delivered 1, given := s.given + 1 }, [n.outgoing]) := by
      simp only [deliverOne, transmit, here]
    have more : (s.engine.count .delivered 1).count .delivered (.ofNat ns.length) =
        s.engine.count .delivered (.ofNat (ns.length + 1)) := by
      simp only [Engine.count, Metrics.add, add_one_add_ofNat]
    rw [deliver, one]
    dsimp only
    rw [ih rest, more]
    simp only [List.length_cons, List.map_cons, List.singleton_append, Nat.add_assoc, Nat.add_comm 1]

theorem answer_of_malformed {error : Error} (h : Message.decode datagram = .error error) :
    s.answer sender datagram now = ({ s with engine := s.engine.count .malformed 1 }, []) := by
  simp only [answer, Engine.receive, h]

/-- What the engine answers is sent, if the socket takes it. -/
theorem answer_of_received {reply : Message} {events : List Notification}
    (received : s.engine.receive ⟨sender⟩ datagram now = (e, .ok (reply, events)))
    (taken : s.network.Takes s.given (⟨sender, reply.encode⟩ :: events.map Notification.outgoing)) :
    s.answer sender datagram now =
      ({ s with engine := e.count .delivered (.ofNat events.length), given := s.given + (events.length + 1) },
        ⟨sender, reply.encode⟩ :: events.map Notification.outgoing) := by
  obtain ⟨first, rest⟩ := Network.takes_cons.1 taken
  have replied : { s with engine := e }.respond ⟨sender, reply.encode⟩ =
      ({ s with engine := e, given := s.given + 1 }, [⟨sender, reply.encode⟩]) := by
    simp only [respond, transmit, first]
  rw [answer, received]
  dsimp only
  rw [replied]
  dsimp only
  rw [deliver_eq rest, List.singleton_append, Nat.add_assoc, Nat.add_comm 1]

/-- What is due for a message: the reply to its sender, and behind it the events. -/
def outgoing (sender : SocketAddress) (code : UInt16) (o : Engine.Outcome) : List Outgoing :=
  ⟨sender, (o.reply.toMessage code).encode⟩ :: o.events.map Notification.outgoing

@[simp] theorem length_outgoing (sender : SocketAddress) (code : UInt16) (o : Engine.Outcome) :
    (outgoing sender code o).length = o.events.length + 1 := by
  rw [outgoing, List.length_cons, List.length_map]

theorem answer_of_message (h : Message.decode datagram = .ok m)
    (engine : s.engine = e.withCounts malformed delivered)
    (taken : s.network.Takes s.given (outgoing sender m.code (e.dispatch ⟨sender⟩ m now))) :
    let o := e.dispatch ⟨sender⟩ m now
    s.answer sender datagram now =
      ({ s with
          engine := o.engine.withCounts malformed (delivered + .ofNat o.events.length)
          given := s.given + (outgoing sender m.code o).length },
        outgoing sender m.code o) := by
  intro o
  have received : s.engine.receive ⟨sender⟩ datagram now =
      (o.engine.withCounts malformed delivered, .ok (o.reply.toMessage m.code, o.events)) := by
    simp only [Engine.receive, h, engine, Engine.dispatch_withCounts, Engine.Outcome.withCounts, o]
  rw [answer_of_received received taken, Engine.count_delivered_withCounts, length_outgoing, outgoing]

/-! ## All of them -/

/-- What is due for each of some datagrams, from the engine that takes them. -/
def due (e : Engine) : List Incoming → List (List Outgoing)
  | [] => []
  | d :: rest =>
    match Message.decode d.datagram with
    | .error _ => [] :: due e rest
    | .ok m =>
      let o := e.dispatch ⟨d.sender⟩ m d.now
      outgoing d.sender m.code o :: due o.engine rest

/-- How many datagrams are no messages. -/
def refused (arrived : List Incoming) : Nat := arrived.countP fun d => d.event?.isNone

/-- A datagram that is no message is passed over. -/
theorem accepted_of_malformed {error : Error} (h : Message.decode d.datagram = .error error)
    (arrived : List Incoming) :
    accepted (d :: arrived) = accepted arrived ∧ refused (d :: arrived) = refused arrived + 1 := by
  have event : d.event? = none := by simp [Incoming.event?, h, Except.toOption]
  exact ⟨List.filterMap_cons_none event, by simp [refused, event]⟩

theorem due_of_malformed {error : Error} (h : Message.decode d.datagram = .error error) :
    due e (d :: arrived) = [] :: due e arrived := by
  simp only [due, h]

theorem accepted_of_message (h : Message.decode d.datagram = .ok m) (arrived : List Incoming) :
    accepted (d :: arrived) = .message ⟨d.sender⟩ m d.now :: accepted arrived ∧
      refused (d :: arrived) = refused arrived := by
  have event : d.event? = some (.message ⟨d.sender⟩ m d.now) := by simp [Incoming.event?, h, Except.toOption]
  exact ⟨List.filterMap_cons_some event, by simp [refused, event]⟩

theorem due_of_message (h : Message.decode d.datagram = .ok m) :
    let o := e.dispatch ⟨d.sender⟩ m d.now
    due e (d :: arrived) = outgoing d.sender m.code o :: due o.engine arrived := by
  simp only [due, h]

/-- What is due for a datagram goes by the engine that the messages before it lead to. -/
theorem due_at {i : Nat} (h : arrived[i]? = some d) :
    (due e arrived)[i]? = (due (e.run (accepted (arrived.take i))) [d])[0]? := by
  induction arrived generalizing e i with
  | nil => cases h
  | cons first arrived ih =>
    cases i with
    | zero =>
      cases h
      cases read : Message.decode d.datagram with
      | error error => rw [due_of_malformed read, due_of_malformed read]; rfl
      | ok m => rw [due_of_message read, due_of_message read]; rfl
    | succ i =>
      rw [List.take_succ_cons]
      cases read : Message.decode first.datagram with
      | error error =>
        rw [due_of_malformed read, (accepted_of_malformed read _).1]
        exact ih h
      | ok m =>
        rw [due_of_message read, (accepted_of_message read _).1]
        exact ih h

/-- After datagrams a server has the engine that their messages lead to, but for what its
socket counts, and has sent what is due. -/
theorem serve_eq (engine : s.engine = e.withCounts malformed delivered)
    (taken : s.network.Takes s.given (due e arrived).flatten) :
    ∃ more, s.serve arrived =
      ({ s with
          engine := (e.run (accepted arrived)).withCounts (malformed + .ofNat (refused arrived)) more
          given := s.given + (due e arrived).flatten.length },
        due e arrived) := by
  -- The counts so far are part of the engine, so the rest is served from other ones.
  induction arrived generalizing s e malformed delivered with
  | nil => exact ⟨delivered, by simp [serve, accepted, refused, due, ← engine]⟩
  | cons d arrived ih =>
    cases h : Message.decode d.datagram with
    | error error =>
      obtain ⟨passed, one⟩ := accepted_of_malformed h arrived
      rw [due_of_malformed h] at taken ⊢
      obtain ⟨more, rest⟩ := ih (s := { s with engine := s.engine.count .malformed 1 })
        (by rw [engine, Engine.count_malformed_withCounts]) taken
      refine ⟨more, ?_⟩
      rw [serve, answer_of_malformed h]
      dsimp only
      rw [rest, passed, one, add_one_add_ofNat]
      rfl
    | ok m =>
      obtain ⟨passed, same⟩ := accepted_of_message h arrived
      rw [due_of_message h, List.flatten_cons, Network.takes_append] at taken
      obtain ⟨more, rest⟩ := ih (s := { s with
        engine := (e.dispatch ⟨d.sender⟩ m d.now).engine.withCounts malformed _, given := s.given + _ }) rfl taken.2
      refine ⟨more, ?_⟩
      rw [serve, answer_of_message h engine taken.1]
      dsimp only
      rw [rest, passed, same, due_of_message h, List.flatten_cons, List.length_append, Nat.add_assoc]
      rfl

/-- A server with any engine: what its socket counted so far is part of that engine. -/
theorem serve_eq_self (taken : s.network.Takes s.given (due s.engine arrived).flatten) :
    ∃ more, s.serve arrived =
      ({ s with
          engine := (s.engine.run (accepted arrived)).withCounts
            (s.engine.metrics.malformed + .ofNat (refused arrived)) more
          given := s.given + (due s.engine arrived).flatten.length },
        due s.engine arrived) := by
  have counts : s.engine = s.engine.withCounts s.engine.metrics.malformed s.engine.metrics.delivered := rfl
  exact serve_eq counts taken

/-- A datagram comes upon the server that the ones before it leave. -/
theorem serve_take_succ (s : Server) {i : Nat} (h : arrived[i]? = some d) :
    (s.serve (arrived.take (i + 1))).1 = ((s.serve (arrived.take i)).1.answer d.sender d.datagram d.now).1 := by
  induction arrived generalizing s i with
  | nil => cases h
  | cons first arrived ih =>
    cases i with
    | zero =>
      cases h
      rfl
    | succ i => exact ih _ h

theorem serve_cut (s : Server) (arrived : List Incoming) : s.serve (arrived.map Incoming.cut) = s.serve arrived := by
  induction arrived generalizing s with
  | nil => rfl
  | cons d arrived ih => simp only [List.map_cons, serve, Incoming.cut, answer_take, ih]

theorem requests_run (e : Engine) (arrived : List Incoming) :
    (e.run (accepted arrived)).metrics.requests + .ofNat (refused arrived) =
      e.metrics.requests + .ofNat arrived.length := by
  induction arrived generalizing e with
  | nil => rfl
  | cons d arrived ih =>
    cases h : Message.decode d.datagram with
    | error error =>
      obtain ⟨passed, one⟩ := accepted_of_malformed h arrived
      have rest := ih e
      rw [passed, one, List.length_cons, ← add_one_add_ofNat, ← add_one_add_ofNat]
      grind
    | ok m =>
      obtain ⟨passed, same⟩ := accepted_of_message h arrived
      rw [passed, same, Engine.run_cons, ih, List.length_cons, ← add_one_add_ofNat]
      exact congrArg (· + _) (e.requests_dispatch ..)

theorem length_due (e : Engine) (arrived : List Incoming) : (due e arrived).length = arrived.length := by
  induction arrived generalizing e with
  | nil => rfl
  | cons d arrived ih =>
    cases h : Message.decode d.datagram with
    | error error => rw [due_of_malformed h, List.length_cons, List.length_cons, ih]
    | ok m => rw [due_of_message h, List.length_cons, List.length_cons, ih]

/-! ## Main results -/

/-- **A server serves each datagram once.** Behind a socket that takes what is due, a server
for a new engine ends up as by the messages among the datagrams, in their order, but for two
counts of the socket. A message brings one reply, to its sender, and behind it the events of
its answer; what is no message brings nothing and changes nothing but the count of such. So
this count and all listed counts of requests come to the number of datagrams, and what a
socket cuts off from a datagram makes no difference. -/
theorem datagrams_served {config : Config} {s : Server} (fresh : Engine.ofConfig config = .ok s.engine)
    (arrived : List Incoming) (taken : s.network.Takes s.given (due s.engine arrived).flatten) :
    let served := (s.serve arrived).1.engine
    let out := (s.serve arrived).2
    (∃ malformed delivered, served = (s.engine.run (accepted arrived)).withCounts malformed delivered) ∧
      out.length = arrived.length ∧
      (∀ i d m, arrived[i]? = some d → Message.decode d.datagram = .ok m →
        let o := (s.engine.run (accepted (arrived.take i))).dispatch ⟨d.sender⟩ m d.now
        out[i]? = some (⟨d.sender, (o.reply.toMessage m.code).encode⟩ :: o.events.map Notification.outgoing)) ∧
      (∀ i d error, arrived[i]? = some d → Message.decode d.datagram = .error error →
        let before := (s.serve (arrived.take i)).1
        out[i]? = some [] ∧
          (s.serve (arrived.take (i + 1))).1 = { before with engine := before.engine.count .malformed 1 }) ∧
      served.metrics.malformed + served.metrics.requests = .ofNat arrived.length ∧
      s.serve (arrived.map Incoming.cut) = s.serve arrived := by
  intro served out
  obtain ⟨delivered, whole⟩ := serve_eq_self taken
  have sent : out = due s.engine arrived := by simp only [out, whole]
  have ends : served = (s.engine.run (accepted arrived)).withCounts _ _ := congrArg (fun x => x.1.engine) whole
  refine ⟨⟨_, _, ends⟩, sent ▸ length_due .., fun i d m h read => ?_, fun i d error h read => ?_, ?_, serve_cut ..⟩
  · rw [sent, due_at h, due_of_message read]
    rfl
  · intro before
    refine ⟨?_, ?_⟩
    · rw [sent, due_at h, due_of_malformed read]
      rfl
    · rw [serve_take_succ s h, answer_of_malformed read]
  · obtain ⟨none, empty⟩ : s.engine.metrics.requests = 0 ∧ s.engine.metrics.malformed = 0 := by
      obtain ⟨_, -, new⟩ := Engine.ofConfig_eq_ok fresh
      rw [new]
      exact ⟨Metrics.requests_zero, rfl⟩
    have counted := requests_run s.engine arrived
    rw [none, UInt64.zero_add] at counted
    rw [ends, Engine.requests_withCounts, UInt64.add_comm]
    show _ + (s.engine.metrics.malformed + _) = _
    rw [empty, UInt64.zero_add]
    exact counted

/-- What is left queued at a shutdown is served like any other sequence. -/
theorem handleAll_eq (s : Server) (now : Nat) (queued : List (SocketAddress × Bytes)) :
    s.handleAll now queued =
      let answered := s.serve (queued.map fun x => ⟨x.1, x.2, now⟩)
      (answered.1, answered.2.flatten) := by
  induction queued generalizing s with
  | nil => rfl
  | cons x queued ih => simp only [handleAll, handle, answer_take, ih, List.map_cons, serve, List.flatten_cons]

/-- **A shutdown answers what is queued, up to a limit.** What is due for the first of the
queued datagrams goes out, and the engine is shut down as their messages leave it; what is
behind the limit is lost. -/
theorem queued_answered (serving : s.serving = true) (queued : List (SocketAddress × Bytes)) (now : Nat) :
    let drained : List Incoming := (queued.take maxDrained).map fun x => ⟨x.1, x.2, now⟩
    s.network.Takes s.given (due s.engine drained).flatten →
      (s.shutdown queued now).2 = (due s.engine drained).flatten ∧
        ∃ malformed delivered, (s.shutdown queued now).1.engine =
          ((s.engine.run (accepted drained)).withCounts malformed delivered).shutdown := by
  intro drained taken
  obtain ⟨delivered, served⟩ := serve_eq_self taken
  have ended : s.shutdown queued now =
      ({ (s.serve drained).1 with engine := (s.serve drained).1.engine.shutdown, serving := false },
        (s.serve drained).2.flatten) := by
    rw [shutdown, if_pos serving, handleAll_eq]
  rw [ended, served]
  exact ⟨rfl, _, delivered, rfl⟩

end Server

namespace Engine.Small

/-- A client registers, then registers a route with more octets than a socket keeps, and drops
it again. In between something comes that is no message. -/
def mail : List Server.Incoming :=
  let posted (m : Message) (surplus : Nat) : Server.Incoming :=
    ⟨client.address, m.encode ++ List.replicate surplus 0, 0⟩
  [posted ⟨.register, 0, Wire.Registration.encode client.address⟩ 0,
    posted (message .route .register (.route (route 7))) 300, ⟨client.address, [7], 0⟩,
    posted (message .route .deregister (.route (route 7))) 0]

/-- A server on a host whose sockets send to addresses with a port. -/
def host : Server where
  address := client.address
  network := { Network.offline with send := fun _ o => if o.receiver.port = 0 then .error .permissionDenied else .ok () }
  engine := start
  given := 0
  serving := true

end Engine.Small

open Engine (Small.config Small.start Small.client Small.mail Small.host)

/-- Three of four datagrams are answered, the last one with the news that the route is gone
behind the reply. -/
theorem Server.datagrams_served_small :
    let served := (Small.host.serve Small.mail).1.engine
    let out := (Small.host.serve Small.mail).2
    Engine.ofConfig Small.config = .ok Small.host.engine ∧
      Small.host.network.Takes Small.host.given (due Small.host.engine Small.mail).flatten ∧
      out.map (·.length) = [1, 1, 0, 2] ∧
      out[1]? = some [⟨Small.client.address, (Wire.Reply.ok.toMessage Command.route.code).encode⟩] ∧
      out[2]? = some [] ∧ served.metrics.malformed = 1 ∧ served.metrics.malformed + served.metrics.requests = 4 := by
  intro served out
  have taken : Small.host.network.Takes Small.host.given (due Small.host.engine Small.mail).flatten := by
    decide +kernel
  have fresh : Engine.ofConfig Small.config = .ok Small.host.engine := rfl
  obtain ⟨-, -, -, passed, counted, -⟩ := datagrams_served fresh Small.mail taken
  refine ⟨fresh, taken, by decide +kernel, by decide +kernel, (passed 2 _ _ rfl rfl).1, by decide +kernel, ?_⟩
  rw [counted]
  rfl

end ControlPlane
