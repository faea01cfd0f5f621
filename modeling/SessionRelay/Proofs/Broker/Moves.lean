import SessionRelay.Broker.Daemon
import SessionRelay.Proofs.Broker.Journal

/-!
What one move does, case by case. All that is proved of runs goes by these cases.
-/

namespace SessionRelay.Broker

open Backend Wire Worker

variable {α : Type}

/-- The workers that have left the tables, and for which the broker has not answered yet. -/
def Stage.leaving : Stage α → List (Thread α)
  | .collecting finished => finished
  | .emptying _ joined => joined
  | _ => []

/-- The workers that have ended and wait to be joined until all reports so far are taken. -/
def Stage.apart : Stage α → List (Thread α)
  | .collecting finished => finished
  | _ => []

/-- Moves from outside that leave the workers alone, and looks around that find nothing. -/
def Move.IsQuiet : Move → Prop
  | .connect _ => True
  | .read _ _ => True
  | .lose _ _ => True
  | .requestShutdown => True
  | .pass _ => True
  | .change _ => True
  | .idle => True
  | _ => False

namespace Daemon

/-- All workers that may have jobs pending. -/
def staff (d : Daemon α) : List (Thread α) := d.router.threads ++ d.stage.leaving

/-- The tables that are empty by each stage of the end. -/
def Cleared (d : Daemon α) : Prop :=
  match d.stage with
  | .joining _ => d.router.sessions = []
  | .emptying _ _ => d.router.sessions = [] ∧ d.router.retired = []
  | .ended =>
    d.router.sessions = [] ∧ d.router.retired = [] ∧ d.router.pending = [] ∧ d.reports = []
  | _ => True

theorem hasEnded_iff {d : Daemon α} : d.hasEnded = true ↔ d.stage = .ended := by
  unfold hasEnded
  split
  · next ended => exact ⟨fun _ => ended, fun _ => rfl⟩
  · next other => exact ⟨fun ended => Bool.noConfusion ended, fun ended => absurd ended other⟩

/-- The arrival that a move takes. -/
def taken? (d : Daemon α) : Move → Option Arrival
  | .takeArrival => d.arrivals.head?
  | _ => none

/-- The report that a move takes. -/
def heeds? (d : Daemon α) : Move → Option Event
  | .takeReport => d.reports.head?
  | .proceed =>
    match d.stage with
    | .collecting _ => d.reports.head?
    | .emptying _ _ => d.reports.head?
    | _ => none
  | _ => none

theorem taken?_of_isQuiet {d : Daemon α} {m : Move} (quiet : m.IsQuiet) : d.taken? m = none := by
  cases m with
  | takeArrival => exact quiet.elim
  | _ => rfl

theorem heeds?_of_isQuiet {d : Daemon α} {m : Move} (quiet : m.IsQuiet) : d.heeds? m = none := by
  cases m with
  | takeReport => exact quiet.elim
  | proceed => exact quiet.elim
  | _ => rfl

variable [Integration.Service α]

omit [Integration.Service α] in
/-- At the end nothing is said but the answers to what is left. -/
theorem silent_conclude (d : Daemon α) (count : Nat) :
    d.router.abandonAll.Silent (d.conclude count).router := by
  have counted := d.router.abandonAll.silent_log .debug "Workers stopped" [("sessions", .nat count)]
  have shut (clients : List Nat) (r : Router α) : r.Silent (clients.foldl Router.disconnect r) :=
    Router.silent_foldl Router.silent_disconnect clients r
  exact (counted.trans (shut _ _)).trans (Router.silent_log _ .info "Broker stopped" [])

/-- A move that can be made, and the state that it leads to. -/
inductive Moves (d : Daemon α) : Move → Daemon α → Prop where
  | quiet {m : Move} {d' : Daemon α} :
    m.IsQuiet → d.router.Silent d'.router → d'.reports = d.reports →
    d'.stage.leaving = d.stage.leaving → (d.Cleared → d'.Cleared) →
    departed d'.router.journal = departed d.router.journal → d'.stage.apart = d.stage.apart →
    Moves d m d'
  | work {worker : String} {t : Thread α} {step : Step α} :
    d.router.thread? worker = some t → t.step? d.surroundings = some step →
    Moves d (.work worker) { d with
      router := step.entries.foldl (fun r e => r.note (.log e))
        (d.router.adjust worker fun _ => step.thread)
      backend := step.backend
      reports := d.reports ++ step.events }
  | crash {worker : String} {t : Thread α} :
    d.router.thread? worker = some t → t.isFinished = false →
    Moves d (.crash worker) { d with router := d.router.adjust worker (·.endWith false) }
  | arrive {arrival : Arrival} {arrivals : List Arrival} :
    d.stage = .selecting → d.arrivals = arrival :: arrivals →
    Moves d .takeArrival { d with
      router := d.router.onArrival arrival, arrivals := arrivals, stage := .checking }
  | hear {report : Event} {reports : List Event} :
    d.stage = .selecting → d.reports = report :: reports →
    Moves d .takeReport { d with
      router := d.router.onReport report, reports := reports, stage := .checking }
  | check : d.stage = .checking → Moves d .proceed d.check
  | reap : d.stage = .reaping → Moves d .proceed d.reap
  | heed {report : Event} {reports : List Event} :
    d.heeds? .proceed = some report → d.reports = report :: reports →
    Moves d .proceed { d with router := d.router.onReport report, reports := reports }
  | dismiss {finished : List (Thread α)} :
    d.stage = .collecting finished → d.reports = [] →
    Moves d .proceed { d with router := d.router.dismiss finished, stage := .selecting }
  | join {count : Nat} :
    d.stage = .joining count → d.router.retired.all Thread.isFinished = true →
    Moves d .proceed { d with
      router := d.router.retired.foldl Router.join { d.router with retired := [] }
      stage := .emptying count d.router.retired }
  | conclude {count : Nat} {joined : List (Thread α)} :
    d.stage = .emptying count joined → d.reports = [] →
    Moves d .proceed (d.conclude count)

variable {d d' : Daemon α}

theorem moves_of_work? {worker : String} (moved : d.work? worker = some d') :
    d.Moves (.work worker) d' := by
  unfold work? at moved
  split at moved
  · cases moved
  · next step some =>
    cases moved
    obtain ⟨t, found, stepped⟩ := Option.bind_eq_some_iff.mp some
    exact .work found stepped

theorem moves_of_proceed? (moved : d.proceed? = some d') : d.Moves .proceed d' := by
  unfold proceed? at moved
  split at moved
  next stage =>
    cases moved
    exact .check stage
  next stage =>
    cases moved
    exact .reap stage
  next finished stage =>
    split at moved
    · next report reports first =>
      cases moved
      exact .heed (by rw [heeds?, stage, first]; rfl) first
    · next none =>
      cases moved
      exact .dismiss stage none
  next count stage =>
    split at moved
    · next all =>
      cases moved
      exact .join stage all
    · cases moved
  next count joined stage =>
    split at moved
    · next report reports first =>
      cases moved
      exact .heed (by rw [heeds?, stage, first]; rfl) first
    · next none =>
      cases moved
      exact .conclude stage none
  next => cases moved

theorem moves_of_step? {m : Move} (moved : d.step? m = some d') : d.Moves m d' := by
  cases m with
  | connect peer =>
    simp only [step?] at moved
    split at moved
    · cases moved
    · cases moved
      have welcomed := (d.router.silent_log .debug "Accepted client connection"
        [("client_id", .nat (d.accepted + 1)), ("peer_addr", .string peer)]).trans
        (Router.silent_connections _ (d.router.connections ++ [⟨d.accepted + 1, none⟩]))
      exact .quiet trivial welcomed rfl rfl id rfl rfl
  | read client chunk =>
    simp only [step?] at moved
    split at moved
    · cases moved
    · cases moved
      exact .quiet trivial (.refl _) rfl rfl id rfl rfl
  | lose client reason =>
    cases moved
    exact .quiet trivial (d.router.silent_connections _) rfl rfl id rfl rfl
  | requestShutdown =>
    cases moved
    exact .quiet trivial (.refl _) rfl rfl id rfl rfl
  | pass now =>
    simp only [step?] at moved
    split at moved
    · cases moved
      exact .quiet trivial (.refl _) rfl rfl id rfl rfl
    · cases moved
  | crash worker =>
    simp only [step?] at moved
    split at moved
    · cases moved
    · next t found =>
      split at moved
      · cases moved
      · next running =>
        cases moved
        exact .crash found (by simpa using running)
  | change f =>
    cases moved
    exact .quiet trivial (.refl _) rfl rfl id rfl rfl
  | work worker => exact moves_of_work? moved
  | takeArrival =>
    simp only [step?] at moved
    split at moved
    · next arrival arrivals selecting first =>
      cases moved
      exact .arrive selecting first
    · cases moved
  | takeReport =>
    simp only [step?] at moved
    split at moved
    · next report reports selecting first =>
      cases moved
      exact .hear selecting first
    · cases moved
  | idle =>
    simp only [step?] at moved
    split at moved
    · next selecting arrivals reports =>
      cases moved
      exact .quiet trivial (.refl _) rfl (by rw [selecting]; rfl) (fun _ => trivial) rfl
        (by rw [selecting]; rfl)
    · cases moved
  | proceed => exact moves_of_proceed? moved

end Daemon

end SessionRelay.Broker
