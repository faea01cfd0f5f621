import SessionRelay.Proofs.Broker.Runs
import SessionRelay.Proofs.Json.Scanned

/-!
Every request that the broker takes is answered exactly once. At every moment the answers, with
those that are due, are one for each frame and each malformed stream that was taken; when all
connections are shut nothing is due any more.
-/

namespace SessionRelay

open Backend Wire Worker Integration

/-- The client that an answer is for, and the request that it names. -/
def Worker.Ticket.address (ticket : Ticket) : Nat × Option String :=
  (ticket.client, ticket.requestId)

namespace Broker

/-- Whom the answer to what is heard of a client is for, and the request that it has to name. -/
def Arrival.demand? : Arrival → Option (Nat × Option String)
  | .frame client payload =>
    match Codec.decodePayload Request.take payload with
    | .ok request => some (client, reference request.requestId)
    | .error _ => some (client, none)
  | .malformed client _ => some (client, none)
  | .disconnected _ => none

/-- What was demanded of the broker in a run, the last demand first. -/
def demands {α : Type} (trace : List (Daemon α × Move)) : List (Nat × Option String) :=
  (arrivalsTaken trace).filterMap Arrival.demand?

/-- Nothing is pending, and the answers meet the tickets one by one. -/
def Router.Meets {α : Type} (r : Router α) (tickets : List Ticket) : Prop :=
  r.pending = [] ∧ (answered r.journal).Perm tickets

variable {α : Type}

theorem Router.ticket?_address (r : Router α) (a : Arrival) :
    (r.ticket? a).map Ticket.address = a.demand? := by
  cases a with
  | frame client payload =>
    cases decoded : Codec.decodePayload Request.take payload with
    | ok request =>
      simp only [Router.ticket?, Arrival.demand?, decoded]
      rfl
    | error e =>
      simp only [Router.ticket?, Arrival.demand?, decoded]
      rfl
  | malformed client reason => rfl
  | disconnected client => rfl

theorem ticketsTaken_address (trace : List (Daemon α × Move)) :
    (ticketsTaken trace).map Ticket.address = demands trace := by
  rw [ticketsTaken, demands, arrivalsTaken, List.map_filterMap, List.filterMap_filterMap]
  congr 1
  funext entry
  obtain ⟨d, m⟩ := entry
  dsimp only [Daemon.takenOn?]
  rw [Option.map_bind]
  exact congrArg _ (funext d.router.ticket?_address)

section Accounts

variable {r r' : Router α} {tickets : List Ticket} (taken : r.TakesOn tickets r')
  (silent : answered r.journal = []) (idle : r.pending = [])
include taken silent idle

/-- From a beginning with nothing answered or due, what is answered or due was taken on. -/
theorem Router.TakesOn.accounts : (answered r'.journal ++ due r'.pending).Perm tickets := by
  have balance := taken.balance
  rw [silent, idle, due_nil, List.append_nil, List.append_nil] at balance
  exact balance

theorem Router.TakesOn.meets (pending : r'.pending = []) : r'.Meets tickets := by
  have accounts := taken.accounts silent idle
  rw [pending, due_nil, List.append_nil] at accounts
  exact ⟨pending, accounts⟩

end Accounts

/-- At every moment of every run there is one ticket for each demand, and the answers and what is
due meet the tickets one by one. When the connections are shut, and from then on, the answers alone
do, and nothing is pending. -/
theorem taken_answered_once {address : String} {limit pollInterval drainTimeout : Nat}
    {recruit : Nat → Except String String} {backend : Rehearsal} {epoch : Int}
    (fresh : (Setup.relay address limit recruit pollInterval drainTimeout).Fresh)
    {trace : List (Daemon Family × Move)} {d : Daemon Family}
    (run : Run (.start (.relay address limit recruit pollInterval drainTimeout) backend epoch)
      trace d) :
    (ticketsTaken trace).map Ticket.address = demands trace ∧
    (answered d.router.journal ++ due d.router.pending).Perm (ticketsTaken trace) ∧
    (∀ count joined, d.stage = .emptying count joined → d.reports = [] →
      d.router.abandonAll.Meets (ticketsTaken trace)) ∧
    (d.stage = .ended → d.router.Meets (ticketsTaken trace)) := by
  obtain ⟨sound, taken⟩ :=
    run.sound (Daemon.sound_start fresh (Family.registry_assigns limit) backend epoch)
  refine ⟨ticketsTaken_address trace, taken.accounts rfl rfl, ?_, ?_⟩
  · intro count joined emptying heard
    have consistent := sound.consistent
    have cleared := sound.cleared
    unfold Daemon.Cleared at cleared
    rw [heard] at consistent
    rw [emptying] at cleared
    obtain ⟨-, more, pending, -, -⟩ := consistent.abandonAll cleared.1 cleared.2
    exact (taken.trans more).meets rfl rfl pending
  · intro ended
    have cleared := sound.cleared
    unfold Daemon.Cleared at cleared
    rw [ended] at cleared
    exact taken.meets rfl rfl cleared.2.2.1

/-- A worker is hired for a request and crashes, and the broker is asked to end. -/
def crashing : List Move :=
  [.connect "127.0.0.1:1", .read 1 (.ofRequest { Request.new "peek" .empty with requestId := "r" }),
    .takeArrival, .crash "w", .requestShutdown, .proceed, .proceed, .proceed, .idle, .proceed,
    .proceed, .proceed]

theorem run?_crashing :
    ((Daemon.start (.forOne "w") .empty 0).run? crashing).map
      (fun d => (d.hasEnded, answered d.router.journal, departed d.router.journal)) =
      some (true, [⟨1, some "r", "w"⟩], ["w"]) := by
  simp only [crashing, Daemon.run?, Daemon.step?, Daemon.proceed?, Daemon.conclude,
    Router.abandonAll, Router.abandon, Router.dismiss, Router.reply, Codec.encode, Chunk.ofRequest,
    Json.Value.bytes_eq]
  decide +kernel

/-- A worker crashes with a request, and the broker answers in its place. -/
theorem crashed_answered_once :
    ∃ trace d, Run (.start (.forOne "w") .empty 0) trace d ∧
      answered d.router.journal = [⟨1, some "r", "w"⟩] ∧ d.router.Meets (ticketsTaken trace) := by
  obtain ⟨trace, d, run, same⟩ := Run.exists_of_run? run?_crashing
  simp only [Prod.mk.injEq] at same
  obtain ⟨ended, answer, -⟩ := same
  exact ⟨trace, d, run, answer,
    (taken_answered_once (Setup.fresh_forOne "w") run).2.2.2 (Daemon.hasEnded_iff.mp ended)⟩

end Broker

end SessionRelay
