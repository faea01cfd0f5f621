import SessionRelay.Proofs.Integration.Custody
import SessionRelay.Proofs.ServiceBus.Links

/-!
Links that could not be opened. A request to connect that fails leaves a session as it was, with one
exception: if it opened the connection itself and the destination of its link is then refused, the
session keeps the connection, and is bound to its namespace without a link. It stays so until a link
is opened, and meanwhile refuses every other namespace.
-/

namespace SessionRelay.ServiceBus

open Integration Wire
open Backend hiding Error

/-- A connection was opened, and the destination of its first link was refused. -/
def Strands (heard : List Exchange) : Prop :=
  ∃ target connection destination e,
    heard = [⟨.connect target, .ok connection⟩, ⟨.declare connection destination, .error e⟩]

/-- Then not every call was granted. -/
theorem Strands.not_granted {heard : List Exchange} (strands : Strands heard) :
    ¬ ∀ x ∈ heard, x.answer.isOk = true := by
  obtain ⟨target, connection, destination, e, rfl⟩ := strands
  intro granted
  cases granted _ (List.mem_cons_of_mem _ List.mem_cons_self)

/-- The request opened a link or found it open. -/
def Opens (handled : Handled) : Prop :=
  handled.request.action = "CONN" ∧ handled.response.success = true

/-- A failed opening has left the connection behind, and no link was opened since. -/
def Stranded : List Handled → Prop
  | [] => False
  | last :: log =>
    (last.request.action = "CONN" ∧ Strands last.heard) ∨ (Stranded log ∧ ¬ Opens last)

namespace Session

variable {s s' : Session} {request : Request}

@[simp] theorem noting_links (s : Session) (e : Backend.Error) : (s.noting e).links = s.links := by
  obtain ⟨usable, same⟩ := noting_eq s e
  rw [same]

/-- The session is bound to the namespace of the plan or to none. -/
def Admits (s : Session) (plan : ConnectPlan) : Prop :=
  ∀ bound, s.space = some bound → bound = plan.url.space

/-- The session on a connection that it has just opened. -/
def boundTo (s : Session) (plan : ConnectPlan) (connection : Connection) : Session :=
  { s with connection := some connection, space := some plan.url.space }

/-- All that a request to connect can come to, with the calls that are made for it. -/
inductive Course (request : Request) (s : Session) :
    List Exchange → Except Error Outcome → Session → Prop
  | unplanned {e : Error} (unread : connectPlan request = .error e) :
      Course request s [] (.error e) s
  | elsewhere {plan : ConnectPlan} {bound : String} (planned : connectPlan request = .ok plan)
      (held : s.space = some bound) (other : bound ≠ plan.url.space) :
      Course request s [] (.error (.invalidUrl plan.raw s!"already connected to {bound}")) s
  | opened {plan : ConnectPlan} {heard : List Exchange} {outcome : Outcome} {s' : Session}
      (planned : connectPlan request = .ok plan) (admits : s.Admits plan)
      (granted : ∀ x ∈ heard, x.answer.isOk = true) (linked : s'.links ≠ []) :
      Course request s heard (.ok outcome) s'
  | unconnected {plan : ConnectPlan} {e : Backend.Error}
      (planned : connectPlan request = .ok plan) (admits : s.Admits plan) :
      Course request s [⟨.connect plan.url.target, .error e⟩] (.error (.backend e)) (s.noting e)
  | undeclared {plan : ConnectPlan} {connection : Connection} {e : Backend.Error}
      (planned : connectPlan request = .ok plan) (admits : s.Admits plan) :
      Course request s [⟨.declare connection plan.link.destination, .error e⟩]
        (.error (.backend e)) (s.noting e)
  | stranded {plan : ConnectPlan} {connection : Connection} {e : Backend.Error}
      (planned : connectPlan request = .ok plan) (unheld : s.connection = none) :
      Course request s [⟨.connect plan.url.target, .ok connection⟩,
          ⟨.declare connection plan.link.destination, .error e⟩]
        (.error (.backend e)) ((s.boundTo plan connection).noting e)

/-- Opens a link on the connection that `s` had or that calls before this have opened. -/
theorem openLink_course {plan : ConnectPlan} (planned : connectPlan request = .ok plan)
    (admits : s.Admits plan) (s' : Session) (connection : Connection) (before : List Exchange)
    (granted : ∀ x ∈ before, x.answer.isOk = true)
    (refused : ∀ e, Course request s
      (before ++ [⟨.declare connection plan.link.destination, .error e⟩])
      (.error (.backend e)) (s'.noting e)) :
    (s'.openLink connection plan).EndsAfter fun later result =>
      Course request s (before ++ later) result.1 result.2 := by
  have linked : (s'.addLink plan).2.links ≠ [] := List.concat_ne_nil _ _
  unfold openLink
  split
  · rw [Dialog.EndsAfter, List.append_nil]
    exact .opened planned admits granted linked
  · intro answer
    cases answer with
    | ok _ =>
      refine .opened planned admits ?_ linked
      exact List.forall_mem_append.mpr ⟨granted, List.forall_mem_singleton.mpr rfl⟩
    | error e => exact refused e

theorem connect_course (moment : Moment) (request : Request) (s : Session) :
    (connect moment request s).EndsAfter fun heard result =>
      Course request s heard result.1 result.2 := by
  unfold connect
  split
  · next e unread => exact .unplanned unread
  · next plan planned =>
    dsimp only
    split
    · next bound here =>
      obtain ⟨held, other⟩ := Option.filter_eq_some_iff.mp here
      exact .elsewhere planned held (bne_iff_ne.mp other)
    · next here =>
      have admits : s.Admits plan := by
        intro bound held
        simpa [held] using here
      split
      · next reused =>
        obtain ⟨link, found⟩ := Option.isSome_iff_exists.mp reused
        exact .opened planned admits nofun (List.ne_nil_of_mem (mem_of_link? found))
      · split
        · next connection held =>
          exact openLink_course planned admits s connection [] nofun
            fun e => .undeclared planned admits
        · next unheld =>
          intro answer
          cases answer with
          | ok connection =>
            exact openLink_course planned admits (s.boundTo plan connection) connection [_]
              (List.forall_mem_singleton.mpr rfl) fun e => .stranded planned unheld
          | error e => exact .unconnected planned admits

/-- A session that is bound to a namespace refuses a request for another one. -/
def Elsewhere (s : Session) (plan : ConnectPlan) (r : Response) : Prop :=
  ∃ bound, s.space = some bound ∧ bound ≠ plan.url.space ∧
    r.message = some (Error.invalidUrl plan.raw s!"already connected to {bound}").message

end Session

/-- What a request to connect changes. If it fails, there are no other links than before, and the
connection and the namespace change only if the session had neither. -/
structure Opening (s : Session) (handled : Handled) (s' : Session) : Prop where
  opened : handled.response.success = true → s'.links ≠ [] ∧ ¬ Strands handled.heard
  links : handled.response.success = false → s'.links = s.links
  kept : handled.response.success = false → ¬ Strands handled.heard →
    s'.space = s.space ∧ s'.connection = s.connection
  stranded : Strands handled.heard →
    s.links = [] ∧ s.space = none ∧ s.connection = none ∧
      ∃ plan, connectPlan handled.request = .ok plan ∧ s'.space = some plan.url.space ∧
        s'.connection.isSome = true
  refused : ∀ plan, connectPlan handled.request = .ok plan →
    (handled.heard = [] ∧ handled.response.success = false ↔ s.Elsewhere plan handled.response)

namespace Session

variable {s s' : Session} {request : Request}

theorem InStep.links_eq_nil (inStep : s.InStep) (unheld : s.connection = none) : s.links = [] := by
  by_contra present
  have held := inStep.connected present
  rw [unheld] at held
  cases held

theorem InStep.space_eq_none (inStep : s.InStep) (unheld : s.connection = none) :
    s.space = none := by
  have bound := inStep.bound
  rw [unheld] at bound
  exact Option.not_isSome_iff_eq_none.mp (bound.trans_ne Bool.false_ne_true)

namespace Course

variable {heard : List Exchange} {result : Except Error Outcome}

theorem of_ok (course : Course request s heard result s') (succeeded : result.isOk = true) :
    s'.links ≠ [] ∧ ¬ Strands heard := by
  cases course with
  | opened planned admits granted linked =>
    exact ⟨linked, fun strands => strands.not_granted granted⟩
  | unplanned | elsewhere | unconnected | undeclared | stranded => cases succeeded

theorem links_eq (course : Course request s heard result s') (failed : result.isOk = false) :
    s'.links = s.links := by
  cases course with
  | unplanned | elsewhere => rfl
  | opened => cases failed
  | unconnected | undeclared | stranded => exact noting_links _ _

theorem kept (course : Course request s heard result s') (failed : result.isOk = false)
    (holds : ¬ Strands heard) : s'.space = s.space ∧ s'.connection = s.connection := by
  cases course with
  | unplanned | elsewhere => exact ⟨rfl, rfl⟩
  | opened => cases failed
  | unconnected | undeclared => exact ⟨noting_space s _, noting_connection s _⟩
  | stranded => exact absurd ⟨_, _, _, _, rfl⟩ holds

theorem of_strands (course : Course request s heard result s') (strands : Strands heard) :
    s.connection = none ∧ ∃ plan, connectPlan request = .ok plan ∧
      s'.space = some plan.url.space ∧ s'.connection.isSome = true := by
  cases course with
  | opened planned admits granted => exact absurd granted strands.not_granted
  | unplanned | elsewhere | unconnected | undeclared =>
    obtain ⟨_, _, _, _, same⟩ := strands
    cases same
  | stranded planned unheld =>
    refine ⟨unheld, _, planned, noting_space _ _, ?_⟩
    rw [noting_connection]
    rfl

/-- Without a call, only the namespace of the session can be against a plan. -/
theorem refused_iff (course : Course request s heard result s') (inStep : s.InStep)
    {plan : ConnectPlan} (asked : connectPlan request = .ok plan) (moment : Moment) :
    heard = [] ∧ result.isOk = false ↔
      s.Elsewhere plan (finished moment request (responseOf s.worker result)) := by
  have same {other : ConnectPlan} (planned : connectPlan request = .ok other) : other = plan :=
    Except.ok.inj (planned.symm.trans asked)
  have unbound (admits : s.Admits plan) (r : Response) : ¬ s.Elsewhere plan r :=
    fun ⟨bound, held, other, _⟩ => other (admits bound held)
  cases course with
  | unplanned unread => cases unread.symm.trans asked
  | @elsewhere _ bound planned held other =>
    cases same planned
    obtain ⟨name, told⟩ := finished_eq moment request (responseOf s.worker (.error
      (.invalidUrl plan.raw s!"already connected to {bound}")))
    refine ⟨fun _ => ⟨_, held, other, ?_⟩, fun _ => ⟨rfl, rfl⟩⟩
    rw [told]
    rfl
  | opened planned admits =>
    cases same planned
    exact iff_of_false (fun failed => nomatch failed.2) (unbound admits _)
  | unconnected planned admits | undeclared planned admits =>
    cases same planned
    exact iff_of_false (fun silent => nomatch silent.1) (unbound admits _)
  | stranded planned unheld =>
    refine iff_of_false (fun silent => nomatch silent.1) ?_
    rintro ⟨bound, held, -⟩
    rw [inStep.space_eq_none unheld] at held
    cases held

theorem opening (course : Course request s heard result s') (inStep : s.InStep)
    (moment : Moment) :
    Opening s ⟨request, heard, finished moment request (responseOf s.worker result)⟩ s' := by
  have succeeds : (finished moment request (responseOf s.worker result)).success = result.isOk := by
    rw [finished_success, responseOf_success]
  constructor
  case opened => exact fun succeeded => course.of_ok (succeeds.symm.trans succeeded)
  case links => exact fun failed => course.links_eq (succeeds.symm.trans failed)
  case kept => exact fun failed => course.kept (succeeds.symm.trans failed)
  case stranded =>
    intro strands
    obtain ⟨unheld, bound⟩ := course.of_strands strands
    exact ⟨inStep.links_eq_nil unheld, inStep.space_eq_none unheld, unheld, bound⟩
  case refused =>
    intro plan planned
    rw [← course.refused_iff inStep planned moment, succeeds]

end Course

/-- What any other request does to the connection: it lasts, and so do the links or some of them, or
it goes with the last one. -/
structure Rests (s s' : Session) : Prop where
  lasts : s'.links ≠ [] → s.links ≠ [] ∧ s'.connection = s.connection
  ends : s'.links = [] → (s.links = [] ∧ s'.connection = s.connection) ∨
    (s.links ≠ [] ∧ s'.connection = none)

theorem rests_of_same (links : s'.links = s.links) (connection : s'.connection = s.connection) :
    Rests s s' := by
  constructor
  case lasts => exact fun present => ⟨links ▸ present, connection⟩
  case ends => exact fun none => Or.inl ⟨links ▸ none, connection⟩

theorem rests_noting (s : Session) (e : Backend.Error) : Rests s (s.noting e) :=
  rests_of_same (noting_links s e) (noting_connection s e)

theorem disconnect_rests (moment : Moment) (request : Request) (s : Session) :
    (disconnect moment request s).Ends fun result => Rests s result.2 := by
  unfold disconnect
  split
  · exact rests_of_same rfl rfl
  · next key _ =>
    split
    · exact rests_of_same rfl rfl
    · next link found =>
      have present : s.links ≠ [] := List.ne_nil_of_mem (mem_of_link found)
      have gone {s' : Session} (links : s'.links = []) (connection : s'.connection = none) :
          Rests s s' :=
        ⟨fun left => absurd links left, fun _ => Or.inr ⟨present, connection⟩⟩
      dsimp only
      split
      · next left =>
        refine ⟨fun _ => ⟨present, rfl⟩, fun none => ?_⟩
        change s.links.filter _ = [] at none
        simp [none] at left
      · split
        · exact gone rfl rfl
        · intro answer
          cases answer with
          | ok _ => exact gone rfl rfl
          | error e => exact gone (noting_links _ e) (noting_connection _ e)

theorem send_rests (moment : Moment) (request : Request) (s : Session) :
    (send moment request s).Ends fun result => Rests s result.2 := by
  unfold send
  split
  · exact rests_of_same rfl rfl
  · exact rests_of_same rfl rfl
  · intro answer
    cases answer with
    | ok id => exact rests_of_same rfl rfl
    | error e => exact rests_noting s e

theorem receive_rests (moment : Moment) (request : Request) (s : Session) :
    (receive moment request s).Ends fun result => Rests s result.2 := by
  unfold receive
  split
  · exact rests_of_same rfl rfl
  · exact rests_of_same rfl rfl
  · intro answer
    cases answer with
    | ok message? => exact rests_of_same rfl rfl
    | error e => exact rests_noting s e

theorem handle_rests (moment : Moment) (s : Session) (other : request.action ≠ "CONN") :
    (Service.handle moment request s).Ends fun result => Rests s result.2 := by
  have handle : Service.handle moment request s = respond actions s.worker moment request s := rfl
  rw [handle, respond]
  split
  · exact rests_of_same rfl rfl
  · next action found =>
    rw [Dialog.ends_map]
    have member := ActionTable.mem_of_get?_ofList found
    simp only [List.mem_cons, List.not_mem_nil, or_false, Prod.mk.injEq] at member
    rcases member with ⟨-, rfl⟩ | ⟨named, -⟩ | ⟨-, rfl⟩ | ⟨-, rfl⟩ | ⟨-, rfl⟩
    · exact rests_of_same rfl rfl
    · exact absurd named other
    · exact disconnect_rests moment request s
    · exact send_rests moment request s
    · exact receive_rests moment request s

theorem handle_opening (moment : Moment) (inStep : s.InStep) (named : request.action = "CONN") :
    (Service.handle moment request s).EndsAfter fun heard result =>
      Opening s ⟨request, heard, result.1⟩ result.2 := by
  have handle : Service.handle moment request s = respond actions s.worker moment request s := rfl
  have found : actions.get? request.action = some connect := by
    rw [named]
    rfl
  rw [handle, respond, found]
  refine Dialog.endsAfter_map.mpr ((connect_course moment request s).imp ?_)
  exact fun heard result course => course.opening inStep moment

end Session

/-- When the connection of a session is open, by the log of what the session has handled. -/
structure Bears (log : List Handled) (s : Session) : Prop where
  held : s.connection.isSome = true ↔ s.links ≠ [] ∨ Stranded log
  apart : s.links ≠ [] → ¬ Stranded log

namespace Bears

variable {log : List Handled} {s s' : Session}

theorem handle_other (bears : Bears log s) {last : Handled} (other : last.request.action ≠ "CONN")
    (rests : s.Rests s') : Bears (last :: log) s' := by
  have same : Stranded (last :: log) ↔ Stranded log := by
    simp [Stranded, Opens, other]
  by_cases links : s'.links = []
  · rcases rests.ends links with ⟨none, kept⟩ | ⟨present, gone⟩
    · refine ⟨?_, absurd links⟩
      rw [kept, bears.held, same, none, links]
    · refine ⟨?_, absurd links⟩
      simp [gone, links, same, bears.apart present]
  · obtain ⟨present, kept⟩ := rests.lasts links
    refine ⟨?_, fun _ => same.not.mpr (bears.apart present)⟩
    simp [kept, bears.held, present, links]

theorem handle_connect (bears : Bears log s) {last : Handled}
    (named : last.request.action = "CONN") (opening : Opening s last s')
    (inStep : s'.InStep) : Bears (last :: log) s' := by
  cases succeeded : last.response.success with
  | true =>
    obtain ⟨linked, holds⟩ := opening.opened succeeded
    have clear : ¬ Stranded (last :: log) := by
      simp [Stranded, Opens, named, succeeded, holds]
    exact ⟨iff_of_true (inStep.connected linked) (Or.inl linked), fun _ => clear⟩
  | false =>
    have links := opening.links succeeded
    by_cases strands : Strands last.heard
    · obtain ⟨none, -, -, plan, -, -, held⟩ := opening.stranded strands
      have left : Stranded (last :: log) := Or.inl ⟨named, strands⟩
      exact ⟨iff_of_true held (Or.inr left), absurd (links.trans none)⟩
    · have same : Stranded (last :: log) ↔ Stranded log := by
        simp [Stranded, Opens, strands, succeeded]
      obtain ⟨-, kept⟩ := opening.kept succeeded strands
      constructor
      case held => rw [kept, links, same, bears.held]
      case apart =>
        rw [links, same]
        exact bears.apart

end Bears

theorem bears_new (worker : String) : Bears [] (.new worker) :=
  ⟨iff_of_false nofun fun some => some.elim (absurd rfl) id, fun _ => id⟩

theorem Reaches.bears {worker : String} {log : List Handled} {s : Session}
    (reached : Reaches worker log s) : Bears log s := by
  induction reached with
  | new => exact bears_new worker
  | @handle log s s' earlier moment request heard response given ih =>
    have inStep : s'.InStep := (earlier.handle moment given).tracks.inStep
    by_cases named : request.action = "CONN"
    · have opening := (Session.handle_opening moment earlier.tracks.inStep named).gives given
      exact ih.handle_connect named opening inStep
    · have rests := (Session.handle_rests moment s named).endsAfter.gives given
      exact ih.handle_other named rests

/-- Whatever requests a session has handled and however its calls were answered, it is bound to a
namespace as long as its connection is open, and that is just in case that it has a link or a failed
opening has left the connection behind. A request to connect that fails changes nothing, unless that
is how it fails. -/
theorem failed_opening_may_strand {worker : String} {log : List Handled} {s : Session}
    (reached : Reaches worker log s) :
    Bears log s ∧ s.space.isSome = s.connection.isSome ∧
    ∀ moment request heard response s', request.action = "CONN" →
      (Service.handle moment request s).Gives heard (response, s') →
        Opening s ⟨request, heard, response⟩ s' := by
  refine ⟨reached.bears, reached.tracks.inStep.bound, ?_⟩
  intro moment request heard response s' named given
  exact (Session.handle_opening moment reached.tracks.inStep named).gives given

/-- A request to receive from a queue opens the connection, and there is no such queue. -/
def noQueue : List Exchange := [
  ⟨.connect ⟨"ns", [("key", "v"), ("key_name", "k")]⟩, .ok ⟨0⟩⟩,
  ⟨.declare ⟨0⟩ "q", .error (.unknownDestination "q")⟩]

/-- The session after that. -/
def unlinked : Session := ⟨"one", some "ns", some ⟨0⟩, [], true⟩

theorem gives_unlinked : ∃ response, response.success = false ∧
    (Service.handle ⟨0, 0⟩ (busRequest "CONN" "queue:q" "receiver" none) (Session.new "one")).Gives
      noQueue (response, unlinked) :=
  ⟨_, rfl, .ask _ (.ask _ (.done _))⟩

theorem unlinked_stranded : ∃ response,
    let failed : Handled := ⟨busRequest "CONN" "queue:q" "receiver" none, noQueue, response⟩
    Opening (.new "one") failed unlinked ∧ Bears [failed] unlinked ∧ Stranded [failed] := by
  obtain ⟨response, -, given⟩ := gives_unlinked
  refine ⟨response, ?_, ?_, Or.inl ⟨rfl, _, _, _, _, rfl⟩⟩
  · exact (failed_opening_may_strand .new).2.2 _ _ _ _ _ rfl given
  · exact (failed_opening_may_strand (.handle .new _ given)).1

/-- A request for a sender to another namespace. -/
def elsewhere : Request :=
  ⟨"CONN", "", none, ⟨[("connection", .string "sender"), ("endpoint", .string "queue:q"),
    ("url", .string "sb://z/;SharedAccessKeyName=k;SharedAccessKey=v")]⟩, none⟩

/-- A request to connect fails, and the session, which has no link, keeps a connection that it did
not have before and refuses another namespace. -/
theorem unlinked_refuses_elsewhere : ∃ failed refusal : Handled,
    Reaches "one" [refusal, failed] unlinked ∧
    failed.request.action = "CONN" ∧ failed.response.success = false ∧
    (Session.new "one").connection = none ∧ (Session.new "one").space = none ∧
    unlinked.links = [] ∧ unlinked.connection.isSome = true ∧ unlinked.space = some "ns" ∧
    refusal.request = elsewhere ∧ refusal.heard = [] ∧ refusal.response.success = false ∧
    refusal.response.message = some
      "invalid url sb://z/;SharedAccessKeyName=k;SharedAccessKey=v: already connected to ns" := by
  obtain ⟨response, failed, given⟩ := gives_unlinked
  have refused : (Service.handle ⟨0, 0⟩ elsewhere unlinked).Gives [] (_, unlinked) := .done _
  exact ⟨_, _, .handle (.handle .new _ given) _ refused, rfl, failed, rfl, rfl, rfl, rfl, rfl, rfl,
    rfl, rfl, by decide⟩

end SessionRelay.ServiceBus
