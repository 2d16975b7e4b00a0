/-
A client that does something under the lock gives the lock back.

Nothing is known of what is done under the lock but that it does no more than a client can: it
sends messages and waits for the replies (`Speaks`), as every call does that is made of a
client's own (`Made.speaks`). It may fail, give the lock back itself, take it again, or take its
leave. Each request that the socket takes reaches the engine among whatever else happens there
(`Serves`); other clients may take the lock in between, and the engine may be shut down. Through
all this the client holds the lock of an engine that runs or does not hold it
(`Engine.Secured`), which is what the last request needs to end every hold of the client
(`Engine.Secured.unlocked`).
-/
import ControlPlane.Proofs.Datagram.Replies
import ControlPlane.Proofs.Engine.Guard

namespace ControlPlane

namespace Engine

open Wire (Message)

variable {e : Engine} {event : Event} {history : List Event} {a : ClientId} {m : Message} {now : Nat}

/-! ## The engine -/

/-- What happens without a client: the client sends no message, and no part of the host takes
the lock for it. -/
structure Event.Foreign (a : ClientId) (event : Event) : Prop where
  silent : ∀ m now, event.message? ≠ some (a, m, now)
  outside : event ≠ .acquire a

/-- A client holds the lock only while the engine runs. -/
def Secured (e : Engine) (a : ClientId) : Prop := e.session.holder = some a → e.running = true

/-- Others do not take the lock for a client. -/
theorem Event.Foreign.not_takes (foreign : event.Foreign a) : ¬ e.Takes event a := by
  rintro (⟨m, now, _, _, sent, _⟩ | ⟨acquires, -⟩)
  · exact foreign.silent m now sent
  · exact foreign.outside acquires

theorem unheld_run (foreign : ∀ event ∈ history, event.Foreign a) (unheld : e.session.holder ≠ some a) :
    (e.run history).session.holder ≠ some a := by
  induction history generalizing e with
  | nil => exact unheld
  | cons event history ih =>
    obtain ⟨first, rest⟩ := List.forall_mem_cons.1 foreign
    refine ih rest fun held => ?_
    obtain takes | ⟨before, -⟩ := holder_step_iff.1 held
    · exact first.not_takes takes
    · exact unheld before

theorem Secured.step (h : e.Secured a) (outside : event ≠ .acquire a) : (e.step event).1.Secured a := by
  intro held
  obtain (locks | ⟨acquires, -⟩) | ⟨before, lasts⟩ := holder_step_iff.1 held
  · exact locks.holds.running
  · exact absurd acquires outside
  · have running := h before
    have goesOn : event ≠ .shutdown := by
      rintro rfl
      exact lasts (.released running .shutdown)
    rw [running_step goesOn, running]

theorem Secured.run (h : e.Secured a) (outside : ∀ event ∈ history, event ≠ .acquire a) :
    (e.run history).Secured a := by
  induction history generalizing e with
  | nil => exact h
  | cons event history ih =>
    obtain ⟨first, rest⟩ := List.forall_mem_cons.1 outside
    exact ih (h.step first) rest

/-- A client that asks to give the lock back does not hold it then. -/
theorem Secured.unlocked {action : Option Action} {r : Wire.Record} (h : e.Secured a)
    (sent : event.message? = some (a, m, now)) (carries : m.Carries .unlockSession action r) :
    (e.step event).1.session.holder ≠ some a := by
  intro held
  obtain (⟨m', _, _, _, sent', carries', -⟩ | ⟨rfl, -⟩) | ⟨before, lasts⟩ := holder_step_iff.1 held
  · cases sent.symm.trans sent'
    cases (carries.unique carries').1
  · cases sent
  · exact lasts (.released (h before) (.unlock sent carries))

end Engine

namespace Client

open Engine (Event)
open Relation (ReflTransGen)
open Wire (Message Reply)

variable {σ α β : Type} {peer : Peer σ} {c c' : Client σ}

/-! ## What a client can do -/

/-- What a client does in one go: it sends a message and waits for the reply, or sets how long it
waits, or where it receives events. -/
inductive Move (peer : Peer σ) (c : Client σ) : Client σ → Prop
  | send (m : Message) : Move peer c (outcome (send peer m c)).2
  | set (timeout : Nat) (backChannel : Option SocketAddress) : Move peer c { c with timeout, backChannel }

/-- A call does nothing but what a client can, whatever it goes by and whatever it comes to. -/
def Speaks (peer : Peer σ) (x : Call σ α) : Prop := ∀ c, ReflTransGen (Move peer) c (outcome (x c)).2

/-- A call, and another one that goes by its value. -/
theorem outcome_bind (x : Call σ α) (f : α → Call σ β) (c : Client σ) :
    outcome ((x >>= f) c) =
      match outcome (x c) with
      | (.ok a, c') => outcome (f a c')
      | (.error error, c') => (.error error, c') := by
  show outcome (EStateM.bind x f c) = _
  rw [EStateM.bind]
  cases x c <;> rfl

theorem outcome_followedBy (first : Call σ α) (last : Call σ Unit) (c : Client σ) :
    outcome (followedBy first last c) =
      let done := outcome (first c)
      let ended := outcome (last done.2)
      (done.1.bind fun a => ended.1.map fun _ => a, ended.2) := by
  simp only [followedBy]
  cases first c with
  | ok a c' => cases h : last c' <;> simp [outcome, h, Except.bind, Except.map]
  | error error c' => cases h : last c' <;> simp [outcome, h, Except.bind]

theorem speaks_settle (x : Except Error α) : Speaks peer (settle x) := by
  intro c
  rw [outcome_settle]

theorem speaks_send (m : Message) : Speaks peer (send peer m) := fun _ => .single (.send m)

theorem Speaks.bind {x : Call σ α} {f : α → Call σ β} (first : Speaks peer x)
    (rest : ∀ a, Speaks peer (f a)) : Speaks peer (x >>= f) := by
  intro c
  have moves := first c
  rw [outcome_bind]
  generalize outcome (x c) = done at moves
  obtain ⟨_ | a, c'⟩ := done
  · exact moves
  · exact moves.trans (rest a c')

theorem outcome_tryCatch (x : Call σ α) (f : Error → Call σ α) (c : Client σ) :
    outcome (tryCatch x f c) =
      match outcome (x c) with
      | (.ok a, c') => (.ok a, c')
      | (.error error, c') => outcome (f error c') := by
  show outcome (EStateM.tryCatch x f c) = _
  rw [EStateM.tryCatch]
  cases x c <;> rfl

theorem Speaks.recover {x : Call σ α} {f : Error → Call σ α} (first : Speaks peer x)
    (rest : ∀ error, Speaks peer (f error)) : Speaks peer (tryCatch x f) := by
  intro c
  have moves := first c
  rw [outcome_tryCatch]
  generalize outcome (x c) = done at moves
  obtain ⟨error | a, c'⟩ := done
  · exact moves.trans (rest error c')
  · exact moves

theorem Speaks.followedBy {first : Call σ α} {last : Call σ Unit} (h : Speaks peer first)
    (h' : Speaks peer last) : Speaks peer (followedBy first last) := by
  intro c
  rw [outcome_followedBy]
  exact (h c).trans (h' _)

theorem speaks_command (code : UInt16) (action : Action) (record : Wire.Record) :
    Speaks peer (command peer code action record) :=
  (speaks_settle _).bind fun m => speaks_send m

theorem speaks_request (code : UInt16) (action : Action) (record : Wire.Record) :
    Speaks peer (request peer code action record) :=
  (speaks_command code action record).bind fun _ => speaks_settle _

theorem speaks_announce (kind : Wire.Kind) (payload : Bytes) : Speaks peer (announce peer kind payload) :=
  (speaks_settle _).bind fun m => (speaks_send m).bind fun _ => speaks_settle _

theorem speaks_dropBackChannel : Speaks peer dropBackChannel := fun c => .single (.set c.timeout none)

theorem speaks_list (code : UInt16) (template : Wire.Record) (decode : Bytes → Except Error α) (limit : Nat)
    (action : Action) : Speaks peer (list peer code template decode limit action) := by
  induction limit generalizing action with
  | zero => exact speaks_settle (.ok none)
  | succ limit ih =>
    refine (speaks_command code action template).bind fun reply => ?_
    split
    · refine (speaks_settle _).bind fun a => (ih .queryCont).bind fun rest => ?_
      exact speaks_settle (.ok (rest.map (a :: ·)))
    · exact speaks_settle (.ok (some []))
    · exact speaks_settle _

theorem speaks_registerCallback (bound : Except HostFault SocketAddress) :
    Speaks peer (registerCallback peer bound) := by
  refine speaks_dropBackChannel.bind fun _ => (speaks_settle _).bind fun address => ?_
  exact (speaks_announce _ _).bind fun _ => fun c => .single (.set c.timeout (some address))

theorem speaks_unregisterCallback : Speaks peer (unregisterCallback peer) := by
  have look : Speaks peer (get : Call σ (Client σ)) := fun _ => .refl
  refine look.bind fun seen => ?_
  split
  · exact speaks_settle _
  · exact (speaks_announce _ _).followedBy speaks_dropBackChannel

theorem speaks_close : Speaks peer (close peer) := (speaks_announce _ _).followedBy speaks_dropBackChannel

/-- A call under the lock may itself be made under the lock. -/
theorem speaks_withLock {body : Call σ α} (h : Speaks peer body) : Speaks peer (withLock peer body) :=
  (speaks_request _ _ _).bind fun _ => h.followedBy (speaks_request _ _ _)

/-- The calls of a client, and what is made of them: one after the other, also after a
failure. -/
inductive Made (peer : Peer σ) : {α : Type} → Call σ α → Prop
  | settle {α : Type} (x : Except Error α) : Made peer (settle x)
  | send (m : Message) : Made peer (send peer m)
  | request (code : UInt16) (action : Action) (record : Wire.Record) : Made peer (request peer code action record)
  | list {α : Type} (code : UInt16) (template : Wire.Record) (decode : Bytes → Except Error α) (limit : Nat)
      (action : Action) : Made peer (list peer code template decode limit action)
  | withLock {α : Type} {body : Call σ α} (h : Made peer body) : Made peer (withLock peer body)
  | registerCallback (bound : Except HostFault SocketAddress) : Made peer (registerCallback peer bound)
  | unregisterCallback : Made peer (unregisterCallback peer)
  | close : Made peer (close peer)
  | bind {α β : Type} {x : Call σ α} {f : α → Call σ β} (first : Made peer x) (rest : ∀ a, Made peer (f a)) :
      Made peer (x >>= f)
  | recover {α : Type} {x : Call σ α} {f : Error → Call σ α} (first : Made peer x)
      (rest : ∀ error, Made peer (f error)) : Made peer (tryCatch x f)

/-- Every call that is made of a client's own does nothing but what a client can. -/
theorem Made.speaks {x : Call σ α} (h : Made peer x) : Speaks peer x := by
  induction h with
  | settle x => exact speaks_settle x
  | send m => exact speaks_send m
  | request code action record => exact speaks_request code action record
  | list code template decode limit action => exact speaks_list code template decode limit action
  | withLock _ ih => exact speaks_withLock ih
  | registerCallback bound => exact speaks_registerCallback bound
  | unregisterCallback => exact speaks_unregisterCallback
  | close => exact speaks_close
  | bind _ _ first rest => exact Speaks.bind first rest
  | recover _ _ first rest => exact Speaks.recover first rest

/-! ## What requests leave behind -/

/-- What was sent stays, and more is sent. -/
theorem sent_of_moves (moves : ReflTransGen (Move peer) c c') :
    ∃ requests : List Message, c'.sent = c.sent ++ requests.map Message.encode := by
  induction moves with
  | refl => exact ⟨[], (List.append_nil _).symm⟩
  | @tail mid _ _ move ih =>
    obtain ⟨requests, sent⟩ := ih
    cases move with
    | set => exact ⟨requests, sent⟩
    | send m =>
      rcases given : peer mid.world m.encode with ⟨world, fault | arrived⟩
      · rw [outcome_send_of_refused given]
        exact ⟨requests, sent⟩
      · refine ⟨requests ++ [m], ?_⟩
        rw [outcome_send_of_taken given]
        simp [sent]

/-- What reaches an engine of a datagram: all of it where the socket took it. -/
def reaching (client : ClientId) (datagram : Bytes) (now : Nat) : Except HostFault (List Arrival) → List Event
  | .ok _ => [.datagram client datagram now]
  | .error _ => []

/-- Each datagram of a client that the socket takes reaches an engine while the client waits,
among what happens there without the client. The replies that the client gets are any. -/
def Serves (engine : σ → Engine) (client : ClientId) (peer : Peer σ) : Prop :=
  ∀ world datagram, ∃ before now after, (∀ event ∈ before ++ after, event.Foreign client) ∧
    engine (peer world datagram).1 =
      (engine world).run (before ++ reaching client datagram now (peer world datagram).2 ++ after)

section

variable {engine : σ → Engine} {client : ClientId}

theorem ne_acquire_of_mem_reaching {datagram : Bytes} {now : Nat} {given : Except HostFault (List Arrival)}
    {event : Event} (h : event ∈ reaching client datagram now given) : event ≠ .acquire client := by
  cases given with
  | error fault => cases h
  | ok arrived =>
    cases List.mem_singleton.1 h
    exact Event.noConfusion

theorem world_send (peer : Peer σ) (m : Message) (c : Client σ) :
    (outcome (send peer m c)).2.world = (peer c.world m.encode).1 := by
  rcases given : peer c.world m.encode with ⟨world, fault | arrived⟩
  · rw [outcome_send_of_refused given]
  · rw [outcome_send_of_taken given]

theorem secured_of_moves (serves : Serves engine client peer) (moves : ReflTransGen (Move peer) c c')
    (h : (engine c.world).Secured client) : (engine c'.world).Secured client := by
  induction moves with
  | refl => exact h
  | @tail mid _ _ move ih =>
    cases move with
    | set => exact ih
    | send m =>
      obtain ⟨before, now, after, foreign, reached⟩ := serves mid.world m.encode
      rw [world_send, reached]
      refine ih.run fun event he => ?_
      rcases List.mem_append.1 he with he | he
      · rcases List.mem_append.1 he with he | he
        · exact (foreign event (List.mem_append_left _ he)).outside
        · exact ne_acquire_of_mem_reaching he
      · exact (foreign event (List.mem_append_right _ he)).outside

/-- A command without a record. -/
def bare (command : Command) : Message := { kind := .command, code := command.code, payload := [] }

theorem carries_unlock : (bare .unlockSession).Carries .unlockSession none .empty := ⟨rfl, rfl, rfl⟩

/-- After a request to give the lock back that was sent the client does not hold it, whatever
the answer. -/
theorem unheld_of_unlock (serves : Serves engine client peer) (h : (engine c.world).Secured client) {world : σ}
    {arrived : List Arrival} (taken : peer c.world (bare .unlockSession).encode = (world, .ok arrived)) :
    (engine (outcome (send peer (bare .unlockSession) c)).2.world).session.holder ≠ some client := by
  obtain ⟨before, now, after, foreign, reached⟩ := serves c.world (bare .unlockSession).encode
  -- what comes behind the request may take the lock, but not for this client
  rw [world_send, reached, taken, List.append_assoc, Engine.run_append, reaching, List.singleton_append,
    Engine.run_cons]
  have secured := h.run fun event he => (foreign event (List.mem_append_left _ he)).outside
  have sent : (Event.datagram client (bare .unlockSession).encode now).message? =
      some (client, bare .unlockSession, now) := rfl
  exact Engine.unheld_run (fun event he => foreign event (List.mem_append_right _ he))
    (secured.unlocked sent carries_unlock)

end

/-! ## Main result -/

/-- What a request comes to, by its reply. -/
theorem outcome_request (peer : Peer σ) (code : UInt16) (action : Action) (record : Wire.Record) (c : Client σ) :
    outcome (request peer code action record c) =
      let asked := outcome (send peer { kind := .command, code, payload := record.payload action } c)
      (asked.1.bind (granted code), asked.2) := by
  have written : Wire.Record.encode code action record = .ok _ := Wire.Record.encode_eq code action record
  rw [request, outcome_bind, command, outcome_bind, outcome_settle, written]
  dsimp only
  cases outcome (send peer { kind := .command, code, payload := record.payload action } c) with
  | mk reply c' =>
    cases reply with
    | error error => rfl
    | ok reply => exact outcome_settle _ _

theorem outcome_lock (peer : Peer σ) (c : Client σ) :
    outcome (lock peer c) =
      let asked := outcome (send peer (bare .lockSession) c)
      (asked.1.bind (granted Command.lockSession.code), asked.2) :=
  outcome_request ..

theorem outcome_unlock (peer : Peer σ) (c : Client σ) :
    outcome (unlock peer c) =
      let asked := outcome (send peer (bare .unlockSession) c)
      (asked.1.bind (granted Command.unlockSession.code), asked.2) :=
  outcome_request ..

/-- Without the lock nothing is done. -/
theorem outcome_withLock_of_error {error : Error} (body : Call σ α) (c : Client σ)
    (refused : (outcome (send peer (bare .lockSession) c)).1.bind (granted Command.lockSession.code) =
      .error error) :
    outcome (withLock peer body c) = (.error error, (outcome (send peer (bare .lockSession) c)).2) := by
  rw [withLock, outcome_bind, outcome_lock]
  dsimp only
  rw [refused]

/-- With the lock it is done, and the lock is given back. -/
theorem outcome_withLock_of_ok (body : Call σ α) (c : Client σ)
    (granted : (outcome (send peer (bare .lockSession) c)).1.bind (granted Command.lockSession.code) = .ok ()) :
    outcome (withLock peer body c) =
      let done := outcome (body (outcome (send peer (bare .lockSession) c)).2)
      let given := outcome (send peer (bare .unlockSession) done.2)
      (done.1.bind fun a => (given.1.bind (Client.granted Command.unlockSession.code)).map fun _ => a,
        given.2) := by
  rw [withLock, outcome_bind, outcome_lock]
  dsimp only
  rw [granted]
  dsimp only
  rw [outcome_followedBy]
  dsimp only
  rw [outcome_unlock]

/-- **The lock is given back.** Whatever a client does under the lock, and whatever it is
answered: unless the request for the lock is answered with `Status.ok`, nothing is done and
nothing more is sent, and the call fails as the request did. If it is, what was to be done is
done, and after all its requests the client asks once to give the lock back; the call comes to
the error of what was done, else to that of giving back, else to the value. Where the engine
that is asked runs at first, the client does not hold the lock in the end, whatever others do
meanwhile. A request that the socket refuses is not sent, and fails with the fault; the client
cannot give the lock back then. -/
theorem lock_given_back {σ α : Type} (peer : Peer σ) (body : Call σ α) (c : Client σ) :
    let code := Command.lockSession.code
    let locking := bare .lockSession
    let unlocking := bare .unlockSession
    let asked := outcome (send peer locking c)
    let result := outcome (withLock peer body c)
    (∀ world arrived, peer c.world locking.encode = (world, .ok arrived) →
        asked.2.sent = c.sent ++ [locking.encode]) ∧
      (∀ world fault, peer c.world locking.encode = (world, .error fault) →
        asked = (.error (.host fault), { c with world })) ∧
      (∀ error, asked.1 = .error error → result = (.error error, asked.2)) ∧
      (∀ reply, asked.1 = .ok reply → reply.status ≠ .ok →
        result = (.error (.status code reply.status), asked.2)) ∧
      ∀ reply, asked.1 = .ok reply → reply.status = .ok →
        let done := outcome (body asked.2)
        let given := outcome (send peer unlocking done.2)
        let freed := given.1.bind (granted Command.unlockSession.code)
        result = (done.1.bind fun a => freed.map fun _ => a, given.2) ∧
          (∀ world fault, peer done.2.world unlocking.encode = (world, .error fault) →
            given = (.error (.host fault), { done.2 with world })) ∧
          (Speaks peer body →
            (∃ requests : List Message, done.2.sent = asked.2.sent ++ requests.map Message.encode) ∧
              ∀ world arrived, peer done.2.world unlocking.encode = (world, .ok arrived) →
                result.2.sent = done.2.sent ++ [unlocking.encode] ∧
                  ∀ (engine : σ → Engine) client, Serves engine client peer →
                    (engine c.world).running = true →
                    (engine result.2.world).session.holder ≠ some client) := by
  intro code locking unlocking asked result
  have moves : ReflTransGen (Move peer) c asked.2 := speaks_send _ c
  refine ⟨fun world arrived taken => ?_, fun world fault => outcome_send_of_refused, fun error failed => ?_,
    fun reply answered refused => ?_, fun reply answered ok => ?_⟩
  · exact congrArg (fun x => x.2.sent) (outcome_send_of_taken taken)
  · have stops : asked.1.bind (granted code) = .error error := by rw [failed]; rfl
    exact outcome_withLock_of_error body c stops
  · have stops : asked.1.bind (granted code) = .error (.status code reply.status) := by
      rw [answered]
      simp [Except.bind, granted, Status.isOk, refused]
    exact outcome_withLock_of_error body c stops
  · intro done given freed
    have goesOn : asked.1.bind (granted code) = .ok () := by
      rw [answered]
      simp [Except.bind, granted, Status.isOk, ok]
    -- the body may lose the lock and take it again: all that is kept of it is `Secured`
    have came : result = (done.1.bind fun a => freed.map fun _ => a, given.2) :=
      outcome_withLock_of_ok body c goesOn
    refine ⟨came, fun world fault => outcome_send_of_refused, fun speaks =>
      ⟨sent_of_moves (speaks asked.2), fun world arrived taken => ?_⟩⟩
    rw [came]
    refine ⟨congrArg (fun x => x.2.sent) (outcome_send_of_taken taken), fun engine client serves running => ?_⟩
    exact unheld_of_unlock serves (secured_of_moves serves (moves.trans (speaks asked.2)) fun _ => running) taken

end Client

namespace Engine.Small

/-- An engine that answers the client, and at which the other client asks for the lock after each
request. -/
def rivalled : Peer Engine := fun e datagram =>
  let answered := e.step (.datagram client datagram 0)
  ((answered.1.step (lock other)).1,
    .ok <| match answered.2 with
      | .replied reply _ => [.ok reply.encode]
      | _ => [])

/-- The client gives the lock back too early, and asks for it again. -/
def careless : Call Engine Unit := do
  Client.unlock rivalled
  Client.withLock rivalled (Client.updateInterface rivalled flagged)

/-- A client that has asked for nothing yet. -/
def newcomer : Client Engine :=
  { world := engine, inbox := [], sent := [], timeout := Client.standardTimeout, backChannel := none }

theorem rivalled_serves : Client.Serves id client rivalled := by
  refine fun e datagram => ⟨[], 0, [lock other], fun event he => ?_, rfl⟩
  rw [List.nil_append, List.mem_singleton] at he
  subst he
  refine ⟨fun m now sent => ?_, Event.noConfusion⟩
  have same : other = client := congrArg (·.1) (Option.some.inj sent)
  exact absurd same (by decide)

end Engine.Small

open Engine in
/-- The other client takes the lock when it is given back too early, and keeps it. The client is
told that it did not get it again, and not that it had none to give back. -/
theorem Client.lock_given_back_small :
    let asked := outcome (send Small.rivalled (bare .lockSession) Small.newcomer)
    let result := outcome (withLock Small.rivalled Small.careless Small.newcomer)
    asked.1 = .ok .ok ∧ Serves id Small.client Small.rivalled ∧ Speaks Small.rivalled Small.careless ∧
      Small.newcomer.world.running = true ∧ result.1 = .error (.status Command.lockSession.code .alreadyLocked) ∧
      (∃ requests : List Wire.Message, (outcome (Small.careless asked.2)).2.sent =
        asked.2.sent ++ requests.map Wire.Message.encode) ∧
      result.2.world.session.holder ≠ some Small.client ∧
      result.2.world.session.holder = some Small.other := by
  dsimp only
  have answered : (outcome (send Small.rivalled (bare .lockSession) Small.newcomer)).1 = .ok .ok := by
    decide +kernel
  have made : Made Small.rivalled Small.careless := (Made.request _ _ _).bind fun _ => (Made.request _ _ _).withLock
  have speaks : Speaks Small.rivalled Small.careless := made.speaks
  have running : Small.newcomer.world.running = true := by decide +kernel
  obtain ⟨-, -, -, -, granted⟩ := lock_given_back Small.rivalled Small.careless Small.newcomer
  obtain ⟨-, -, given⟩ := granted _ answered rfl
  obtain ⟨requests, ended⟩ := given speaks
  obtain ⟨-, free⟩ := ended _ _ rfl
  have unheld := free id Small.client Small.rivalled_serves (by rw [id_eq]; exact running)
  rw [id_eq] at unheld
  refine ⟨answered, Small.rivalled_serves, speaks, running, ?_, requests, unheld, ?_⟩
  · decide +kernel
  · decide +kernel

end ControlPlane
