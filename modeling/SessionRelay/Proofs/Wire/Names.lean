import SessionRelay.Proofs.Json.LeadingMembers
import SessionRelay.Proofs.Wire.Envelope

/-!
What is read of an envelope that is read at all. The members that stand first in the text are read
as they were written, whatever the others hold and even if those could not have been written so:
the name of a request, the name that a response gives, and whether it is a success.
-/

namespace SessionRelay.Wire

theorem whole_of_decodePayload {α : Type} {take : Json.Taking α} {payload : Bytes} {a : α}
    (read : Codec.decodePayload take payload = .ok a) : take.whole payload = .ok a := by
  unfold Codec.decodePayload at read
  split at read
  · next taken =>
    cases read
    exact taken
  · cases read

/-- A request that can be read is read under its name. -/
theorem Request.requestId_of_decodePayload {r heard : Request}
    (read : Codec.decodePayload Request.take r.toValue.bytes = .ok heard) :
    heard.requestId = r.requestId := by
  obtain ⟨second, members, written⟩ : ∃ second members,
      r.toValue = .object ([("action", .string r.action), ("request_id", .string r.requestId)] ++
        second :: members) := by
    unfold toValue
    cases r.worker with
    | none => exact ⟨_, _, rfl⟩
    | some worker => exact ⟨_, _, rfl⟩
  have taken := whole_of_decodePayload read
  rw [written] at taken
  have others : ∀ f ∈ record.fields, f.name ≠ "request_id" →
      f.Keeps fun heard => heard.requestId = r.requestId := by
    intro f inside other
    simp only [record, List.mem_cons, List.not_mem_nil, or_false] at inside
    rcases inside with rfl | rfl | rfl | rfl | rfl
    case inr.inl => exact absurd rfl other
    all_goals exact Json.Field.ofTaking_keeps fun _ _ same => same
  have fills : record.Fills record.blank []
      [("action", .string r.action), ("request_id", .string r.requestId)]
      { new r.action .empty with requestId := r.requestId } ["request_id", "action"] :=
    ⟨_, _, rfl, rfl, takes_ofTaking (Json.takes_text r.action), _, _, rfl, rfl,
      takes_ofTaking (Json.takes_text r.requestId), rfl, rfl⟩
  refine Json.Record.whole_leading others fills (by decide) ?_ rfl taken
  simp [Json.Value.Whole, Json.Value.Throughout, Json.Value.wholeHere]

/-- A response that names a request is read under that name. -/
theorem Response.requestId_of_decodePayload {r heard : Response} {id : String}
    (named : r.requestId = some id)
    (read : Codec.decodePayload Response.take r.toValue.bytes = .ok heard) :
    heard.requestId = some id := by
  obtain ⟨second, members, written⟩ : ∃ second members,
      r.toValue = .object ([("success", .bool r.success), ("worker", .string r.worker),
        ("request_id", .string id)] ++ second :: members) :=
    ⟨_, _, by rw [toValue, named]; rfl⟩
  have taken := whole_of_decodePayload read
  rw [written] at taken
  have others : ∀ f ∈ record.fields, f.name ≠ "request_id" →
      f.Keeps fun heard => heard.requestId = some id := by
    intro f inside other
    simp only [record, List.mem_cons, List.not_mem_nil, or_false] at inside
    rcases inside with rfl | rfl | rfl | rfl | rfl | rfl | rfl | rfl
    case inr.inr.inl => exact absurd rfl other
    all_goals exact Json.Field.ofTaking_keeps fun _ _ same => same
  have name : Json.Takes (Json.Taking.optional Json.Taking.text) (.string id) (some id) :=
    (Json.takes_text id).optional (by rintro ⟨⟩)
  have fills : record.Fills record.blank []
      [("success", .bool r.success), ("worker", .string r.worker), ("request_id", .string id)]
      { succeeded r.worker with success := r.success, requestId := some id }
      ["request_id", "worker", "success"] :=
    ⟨_, _, rfl, rfl, takes_ofTaking (Json.takes_bool r.success), _, _, rfl, rfl,
      takes_ofTaking (Json.takes_text r.worker), _, _, rfl, rfl, takes_ofTaking name, rfl, rfl⟩
  refine Json.Record.whole_leading others fills (by decide) ?_ rfl taken
  simp [Json.Value.Whole, Json.Value.Throughout, Json.Value.wholeHere]

/-- Whatever else it tells, a success is read as a success if it can be read. -/
theorem Response.success_of_decodePayload {r heard : Response} (success : r.success = true)
    (read : Codec.decodePayload Response.take r.toValue.bytes = .ok heard) :
    heard.success = true := by
  obtain ⟨second, members, written⟩ : ∃ second members,
      r.toValue = .object ([("success", .bool true)] ++ second :: members) :=
    ⟨_, _, by rw [toValue, success]; rfl⟩
  have taken := whole_of_decodePayload read
  rw [written] at taken
  have others : ∀ f ∈ record.fields, f.name ≠ "success" →
      f.Keeps fun heard => heard.success = true := by
    intro f inside other
    simp only [record, List.mem_cons, List.not_mem_nil, or_false] at inside
    rcases inside with rfl | rfl | rfl | rfl | rfl | rfl | rfl | rfl
    case inl => exact absurd rfl other
    all_goals exact Json.Field.ofTaking_keeps fun _ _ same => same
  have fills : record.Fills record.blank [] [("success", .bool true)]
      { succeeded "" with success := true } ["success"] :=
    ⟨_, _, rfl, rfl, takes_ofTaking (Json.takes_bool true), rfl, rfl⟩
  refine Json.Record.whole_leading others fills (by decide) ?_ rfl taken
  simp [Json.Value.Whole, Json.Value.Throughout, Json.Value.wholeHere]

end SessionRelay.Wire
