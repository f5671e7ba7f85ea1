import NetHop.Framing
import NetHop.Wire.Codec
import NetHop.Wire.Validate

/-!
# Frames as bytes

A frame is checked, written as JSON text and sent behind its length.  It is read back
from a whole message or from a stream; both end in the same reading of the payload.

A reader takes a stream apart exactly at the frames that were written.  What a frame is
read back as differs from it in the members that hold `null`: the writer accepts those,
and the reader takes them for absent ones.
-/

namespace NetHop.Wire

open Framing List

section

variable (T : JsonText)

/-! ## The code -/

def textBytes (text : String) : List UInt8 := text.toByteArray.data.toList

def fromUtf8 (bytes : List UInt8) : Option String := String.fromUTF8? ⟨bytes.toArray⟩

/-- `get("version")` followed by `as_u64`. -/
def envelopeVersion : Json → Option Nat
  | .object members =>
    match members.lookup "version" with
    | some (.number (.unsigned n)) => some n
    | _ => none
  | _ => none

namespace FrameCodec

def encode (frame : WireFrame) : Except ProtocolError (List UInt8) := do
  frame.validate T
  let payload := textBytes (T.render frame.write)
  ensure (payload != [] && payload.length ≤ maxFrameBytes) .frameTooLarge
  return toBeBytes 4 payload.length ++ payload

def decodePayload (payload : List UInt8) : Except ProtocolError WireFrame := do
  let text ← okOr (fromUtf8 payload) .invalidUtf8
  let envelope ← okOr (T.parse text) .invalidEnvelope
  let version ← okOr (envelopeVersion envelope) .invalidEnvelope
  ensure (version == protocolVersion.toNat) .unsupportedVersion
  let frame ← okOr (WireFrame.read envelope) .invalidEnvelope
  frame.validate T
  return frame

def decode (encoded : List UInt8) : Except ProtocolError WireFrame := do
  ensure (4 ≤ encoded.length) .invalidFrameLength
  let length := fromBeBytes (encoded.take 4)
  ensure (length != 0 && length ≤ maxFrameBytes) .frameTooLarge
  ensure (encoded.length == 4 + length) .invalidFrameLength
  decodePayload T (encoded.drop 4)

def readFrom (reader : Reader) : Except ProtocolError WireFrame × Reader :=
  match reader.readExact 4 with
  | (none, reader) => (.error .io, reader)
  | (some front, reader) =>
    let length := fromBeBytes front
    if length == 0 || maxFrameBytes < length then (.error .frameTooLarge, reader)
    else
      match reader.readExact length with
      | (none, reader) => (.error .io, reader)
      | (some payload, reader) => (decodePayload T payload, reader)

/-- A number of frames, one after the other. -/
def readMany : Nat → Reader → List (Except ProtocolError WireFrame) × Reader
  | 0, reader => ([], reader)
  | count + 1, reader =>
    let first := readFrom T reader
    let others := readMany count first.2
    (first.1 :: others.1, others.2)

end FrameCodec

end

variable {encodings : List (List UInt8)}

namespace FrameCodec

variable {T : JsonText} {frame : WireFrame} {bytes payload more : List UInt8}

/-! ## Frames in a stream -/

/-- A payload of a length that a header may give. -/
def Sized (payload : List UInt8) : Prop := 0 < payload.length ∧ payload.length ≤ maxFrameBytes

theorem Sized.fromBeBytes_length (h : Sized payload) :
    fromBeBytes (toBeBytes 4 payload.length) = payload.length := by
  have hbound : maxFrameBytes < 256 ^ 4 := by decide
  exact fromBeBytes_toBeBytes (h.2.trans_lt hbound)

theorem encode_eq_ok (h : encode T frame = .ok bytes) :
    frame.validate T = .ok () ∧ bytes = Framing.frame (textBytes (T.render frame.write)) ∧
      Sized (textBytes (T.render frame.write)) := by
  simp only [encode, bind_eq_ok, ensure_eq_ok, Bool.and_eq_true, bne_iff_ne, decide_eq_true_eq] at h
  obtain ⟨_, hvalid, _, ⟨hne, hle⟩, hbytes⟩ := h
  cases hbytes
  exact ⟨hvalid, rfl, length_pos_iff.mpr hne, hle⟩

theorem decode_frame (h : Sized payload) :
    decode T (Framing.frame payload) = decodePayload T payload := by
  have hne : payload.length ≠ 0 := Nat.pos_iff_ne_zero.mp h.1
  unfold decode
  rw [take_frame, drop_frame, h.fromBeBytes_length, length_frame]
  simp [ensure, hne, h.2, bind, Except.bind]

theorem readFrom_frame {reader : Reader} (h : Sized payload)
    (hrest : reader.rest = Framing.frame payload ++ more) :
    ∃ deliveries, readFrom T reader = (decodePayload T payload, ⟨more, deliveries⟩) := by
  have hsplit : reader.rest = toBeBytes 4 payload.length ++ (payload ++ more) := by
    rw [hrest, Framing.frame, append_assoc]
  obtain ⟨deliveries, hfront⟩ := Reader.readExact_append hsplit
  rw [length_toBeBytes] at hfront
  have hnext : (⟨payload ++ more, deliveries⟩ : Reader).rest = payload ++ more := rfl
  obtain ⟨deliveries', hpayload⟩ := Reader.readExact_append hnext
  have hne : payload.length ≠ 0 := Nat.pos_iff_ne_zero.mp h.1
  unfold readFrom
  rw [hfront]
  simp [h.fromBeBytes_length, hne, Nat.not_lt.mpr h.2, hpayload]

theorem decode_eq_ok (h : decode T bytes = .ok frame) :
    ∃ payload, Sized payload ∧ bytes = Framing.frame payload := by
  simp only [decode, bind_eq_ok, ensure_eq_ok, Bool.and_eq_true, bne_iff_ne, decide_eq_true_eq,
    beq_iff_eq] at h
  obtain ⟨_, -, _, ⟨hne, hle⟩, _, hlength, -⟩ := h
  have hdrop : (bytes.drop 4).length = fromBeBytes (bytes.take 4) := by
    rw [length_drop]
    omega
  refine ⟨bytes.drop 4, ⟨?_, ?_⟩, eq_frame hlength⟩
  · rw [hdrop]
    exact Nat.pos_iff_ne_zero.mpr hne
  · rw [hdrop]
    exact hle

/-- Every frame of a stream is read as a message of its own would be, and in the end no
byte is left. -/
theorem readMany_encoded {reader : Reader}
    (h : ∀ e ∈ encodings, ∃ payload, Sized payload ∧ e = Framing.frame payload)
    (hrest : reader.rest = encodings.flatten) :
    (readMany T encodings.length reader).1 = encodings.map (decode T) ∧
      (readMany T encodings.length reader).2.rest = [] := by
  induction encodings generalizing reader with
  | nil => exact ⟨rfl, hrest⟩
  | cons e encodings ih =>
    rw [forall_mem_cons] at h
    obtain ⟨⟨payload, hsized, rfl⟩, hothers⟩ := h
    obtain ⟨deliveries, hfirst⟩ := readFrom_frame (T := T) hsized hrest
    obtain ⟨hresults, hleft⟩ := @ih ⟨encodings.flatten, deliveries⟩ hothers rfl
    simp only [length_cons, readMany, hfirst, map_cons, decode_frame hsized]
    exact ⟨by rw [hresults], hleft⟩

theorem mapM_encode {frames : List WireFrame} (h : frames.mapM (encode T) = .ok encodings) :
    frames.length = encodings.length ∧
      ∀ e ∈ encodings, ∃ payload, Sized payload ∧ e = Framing.frame payload := by
  induction frames generalizing encodings with
  | nil =>
    cases h
    exact ⟨rfl, nofun⟩
  | cons frame frames ih =>
    rw [mapM_cons, bind_eq_ok] at h
    obtain ⟨e, he, h⟩ := h
    rw [bind_eq_ok] at h
    obtain ⟨others, hothers, h⟩ := h
    cases h
    obtain ⟨hlength, hmem⟩ := ih hothers
    obtain ⟨-, hbytes, hsized⟩ := encode_eq_ok he
    refine ⟨congrArg (· + 1) hlength, ?_⟩
    rw [forall_mem_cons]
    exact ⟨⟨_, hsized, hbytes⟩, hmem⟩

/-- The frames of a stream are found again however its bytes arrive, and a message is only
accepted when it is one header followed by the bytes it announces. -/
theorem frames_delimit_themselves (T : JsonText) :
    (∀ (frames : List WireFrame) (encodings : List (List UInt8)) (deliveries : List Delivery),
      frames.mapM (encode T) = .ok encodings →
      (readMany T frames.length ⟨encodings.flatten, deliveries⟩).1 = encodings.map (decode T) ∧
        (readMany T frames.length ⟨encodings.flatten, deliveries⟩).2.rest = []) ∧
    ∀ bytes frame, decode T bytes = .ok frame →
      (∃ payload : List UInt8, 0 < payload.length ∧ payload.length ≤ maxFrameBytes ∧
        bytes = toBeBytes 4 payload.length ++ payload) ∧
      ∀ deliveries, (readFrom T ⟨bytes, deliveries⟩).1 = .ok frame ∧
        (readFrom T ⟨bytes, deliveries⟩).2.rest = [] := by
  refine ⟨fun frames encodings deliveries h => ?_, fun bytes frame h => ?_⟩
  · obtain ⟨hlength, hframed⟩ := mapM_encode h
    rw [hlength]
    exact readMany_encoded hframed rfl
  · obtain ⟨payload, hsized, rfl⟩ := decode_eq_ok h
    refine ⟨⟨payload, hsized.1, hsized.2, rfl⟩, fun deliveries => ?_⟩
    have hrest : (⟨Framing.frame payload, deliveries⟩ : Reader).rest =
        Framing.frame payload ++ [] := (append_nil _).symm
    obtain ⟨deliveries', hread⟩ := readFrom_frame (T := T) hsized hrest
    rw [decode_frame hsized] at h
    rw [hread]
    exact ⟨h, rfl⟩

/-- A library that knows one value and its text. -/
def sampleText (text : String) (j : Json) : JsonText where
  render _ := text
  parse _ := some j
  limit := some 127

def sampleId : RequestId := ⟨"r1", by decide⟩

def sampleEnd : WireFrame :=
  .stream ⟨protocolVersion, sampleId, 1, .ended, none, none⟩

def sampleEndText : String :=
  "\x7b\"version\":6,\"request_id\":\"r1\",\"sequence\":1,\"kind\":\"end\"\x7d"

/-- Two frames that arrive in small pieces, with an interruption. -/
theorem sampleEnds_delimited : let T := sampleText sampleEndText sampleEnd.write
    let encoded := Framing.frame (textBytes sampleEndText)
    let reader : Reader := ⟨[encoded, encoded].flatten,
      [.atMost 0, .interrupted, .atMost 4, .atMost 60, .atMost 2]⟩
    (readMany T 2 reader).1 = [decode T encoded, decode T encoded] ∧
      (readMany T 2 reader).2.rest = [] := by
  have hencode : [sampleEnd, sampleEnd].mapM (encode (sampleText sampleEndText sampleEnd.write)) =
        .ok [Framing.frame (textBytes sampleEndText), Framing.frame (textBytes sampleEndText)] := by
    rfl
  exact (frames_delimit_themselves _).1 [sampleEnd, sampleEnd] _ _ hencode

end FrameCodec

end NetHop.Wire
