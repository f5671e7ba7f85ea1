import NetHop.Wire.FrameCodec

/-!
# Frames read back

A frame that is written and read again is the frame as JSON keeps it: members that hold
`null` are gone.  So a frame comes back exactly when it has no such member and its text is
not nested deeper than the reader goes.
-/

namespace NetHop.Wire

open Framing WireFrame

variable {T : JsonText} {frame : WireFrame} {bytes : List UInt8}

attribute [local simp] WireFrame.write Record.codec Members.write Members.present
  envelopeVersion Codec.u8

/-- No optional JSON value of the frame is `null`. -/
def WireFrame.NullFree : WireFrame → Prop
  | .request _ => True
  | .response r => r.result ≠ some .null ∧ ∀ e ∈ r.error, e.details ≠ some .null
  | .stream s => s.payload ≠ some .null ∧ ∀ e ∈ s.error, e.details ≠ some .null

/-! ## Frames without `null` -/

@[simp] theorem filter_isNull_eq_self {o : Option Json} :
    (o.filter fun v => !v.isNull) = o ↔ o ≠ some .null := by
  cases o with
  | none => simp
  | some v => cases v <;> simp [Json.isNull]

@[simp] theorem ControlError.map_asRead_eq_self {o : Option ControlError} :
    o.map asRead = o ↔ ∀ e ∈ o, e.details ≠ some .null := by
  cases o with
  | none => simp
  | some e =>
    obtain ⟨code, message, details⟩ := e
    simp [asRead]

/-- A request is only accepted with a document that is an object. -/
theorem ControlRequest.asRead_of_validate {r : ControlRequest} (h : r.validate T = .ok ()) :
    r.asRead = r := by
  simp only [validate, bind_eq_ok, ensure_eq_ok] at h
  obtain ⟨_, -, _, -, _, -, _, -, _, -, _, -, _, hdocument, -⟩ := h
  have hnull : r.params.document ≠ some .null := by
    intro hnull
    rw [hnull] at hdocument
    cases hdocument
  simp only [asRead, ControlParams.asRead, filter_isNull_eq_self.mpr hnull]

theorem WireFrame.asRead_eq_self (h : frame.validate T = .ok ()) :
    frame.asRead = frame ↔ frame.NullFree := by
  cases frame with
  | request r =>
    simp [asRead, NullFree, ControlRequest.asRead_of_validate h]
  | response r =>
    obtain ⟨version, requestId, ok, generation, result, error⟩ := r
    simp [asRead, NullFree, ControlResponse.asRead]
  | stream s =>
    obtain ⟨version, requestId, sequence, kind, payload, error⟩ := s
    simp [asRead, NullFree, StreamFrame.asRead]

/-! ## Payloads -/

theorem fromUtf8_textBytes (text : String) : fromUtf8 (textBytes text) = some text := by
  change String.fromUTF8? text.toByteArray = some text
  unfold String.fromUTF8?
  rw [dif_pos text.isValidUTF8]
  rfl

/-- A frame that is accepted is written with the version of the protocol. -/
theorem envelopeVersion_write (h : frame.validate T = .ok ()) :
    envelopeVersion frame.write = some protocolVersion.toNat := by
  cases frame with
  | request r =>
    simp only [validate, ControlRequest.validate, bind_eq_ok, ensure_eq_ok, beq_iff_eq] at h
    obtain ⟨_, hversion, -⟩ := h
    rw [← hversion]
    simp [ControlRequest.record]
  | response r =>
    simp only [validate, ControlResponse.validate, bind_eq_ok, ensure_eq_ok, beq_iff_eq] at h
    obtain ⟨_, hversion, -⟩ := h
    rw [← hversion]
    simp [ControlResponse.record]
  | stream s =>
    simp only [validate, StreamFrame.validate, bind_eq_ok, ensure_eq_ok,
      Bool.and_eq_true, beq_iff_eq] at h
    obtain ⟨_, ⟨hversion, -⟩, -⟩ := h
    rw [← hversion]
    simp [StreamFrame.record]

namespace FrameCodec

theorem decode_encoded (htext : T.Faithful frame.write) (h : encode T frame = .ok bytes) :
    decode T bytes =
      if T.WithinLimit frame.write then (frame.asRead.validate T).map fun _ => frame.asRead
      else .error .invalidEnvelope := by
  obtain ⟨hvalid, rfl, hsized⟩ := encode_eq_ok h
  have hparse : T.parse (T.render frame.write) =
      if T.WithinLimit frame.write then some frame.write else none := htext
  rw [decode_frame hsized]
  unfold decodePayload
  by_cases hlimit : T.WithinLimit frame.write
  · rw [if_pos hlimit] at hparse ⊢
    simp only [fromUtf8_textBytes, hparse, envelopeVersion_write hvalid, read_write,
      okOr, ensure, BEq.rfl, if_true, bind, Except.bind]
    cases frame.asRead.validate T <;> rfl
  · rw [if_neg hlimit] at hparse ⊢
    simp only [fromUtf8_textBytes, hparse, okOr, bind, Except.bind]

/-- A frame the writer accepts is read back as itself exactly when it has no `null` and is
not nested too deep. -/
theorem decode_encode (htext : T.Faithful frame.write) (h : encode T frame = .ok bytes) :
    decode T bytes = .ok frame ↔ frame.NullFree ∧ T.WithinLimit frame.write := by
  have hvalid := (encode_eq_ok h).1
  have hself := asRead_eq_self hvalid
  rw [decode_encoded htext h]
  by_cases hlimit : T.WithinLimit frame.write
  · rw [if_pos hlimit]
    constructor
    · intro hdecode
      cases hread : frame.asRead.validate T with
      | error e =>
        rw [hread] at hdecode
        cases hdecode
      | ok u =>
        rw [hread] at hdecode
        injection hdecode with hframe
        exact ⟨hself.mp hframe, hlimit⟩
    · rintro ⟨hnull, -⟩
      rw [hself.mpr hnull, hvalid]
      rfl
  · rw [if_neg hlimit]
    constructor
    · intro hdecode
      cases hdecode
    · rintro ⟨-, hlimit'⟩
      exact absurd hlimit' hlimit

def sampleResponse (result : Json) : WireFrame :=
  .response ⟨protocolVersion, sampleId, true, none, some result, none⟩

def nestedResult : Json :=
  .object [("nodes", .array [.object [("id", .string "n1"), ("delay", .number (.unsigned 42))]])]

def nestedText : String :=
  "\x7b\"version\":6,\"request_id\":\"r1\",\"ok\":true,\"generation\":null,\"result\":" ++
  "\x7b\"nodes\":[\x7b\"id\":\"n1\",\"delay\":42\x7d]\x7d\x7d"

theorem sampleResponse_comes_back :
    decode (sampleText nestedText (sampleResponse nestedResult).write)
      (Framing.frame (textBytes nestedText)) = .ok (sampleResponse nestedResult) := by
  let T := sampleText nestedText (sampleResponse nestedResult).write
  have hlimit : T.WithinLimit (sampleResponse nestedResult).write := by decide
  have htext : T.Faithful (sampleResponse nestedResult).write := (if_pos hlimit).symm
  have hencode : encode T (sampleResponse nestedResult) =
      .ok (Framing.frame (textBytes nestedText)) := by
    rfl
  exact (decode_encode htext hencode).mpr ⟨⟨nofun, nofun⟩, hlimit⟩

def nullText : String :=
  "\x7b\"version\":6,\"request_id\":\"r1\",\"ok\":true,\"generation\":null,\"result\":null\x7d"

/-- A successful response whose result is `null` is sent and then refused. -/
theorem null_result_refused : let T := sampleText nullText (sampleResponse .null).write
    let encoded := Framing.frame (textBytes nullText)
    T.Faithful (sampleResponse .null).write ∧ encode T (sampleResponse .null) = .ok encoded ∧
      decode T encoded = .error .invalidEnvelope := by
  intro T encoded
  have hlimit : T.WithinLimit (sampleResponse .null).write := by decide
  have htext : T.Faithful (sampleResponse .null).write := (if_pos hlimit).symm
  have hencode : encode T (sampleResponse .null) = .ok encoded := by
    rfl
  refine ⟨htext, hencode, ?_⟩
  change decode (sampleText nullText (sampleResponse .null).write) (Framing.frame _) = _
  rfl

end FrameCodec

end NetHop.Wire
