import TerminalManager.Lib.LittleEndian

/-!
# Frames on the wire

`u32 length (LE) | u8 kind | payload`, where the length counts the kind byte and the payload
(`protocol/frame.rs`), and the two kinds of frame the daemon writes: control messages and PTY
output (`protocol/message.rs`).

* `encodeFrame`       one frame, or the error of a payload that is too large;
* `IsFrame`           a list of bytes that `encodeFrame` can give;
* `frame_length`      the length prefix of a frame is at most `maxFrameLen`;
* `Framed`            a prefix of whole frames; `Framed.rest` what follows a frame is framed too,
                      and `Framed.decodeLength` its first bytes are a legal length.
-/

namespace TerminalManager.Ptyd
open LittleEndian

/-- `MAX_FRAME_LEN` -/
def maxFrameLen : Nat := 1024 * 1024

def u32Max : Nat := 0xFFFFFFFF

def kindControl : UInt8 := 0

def kindOutput : UInt8 := 1

def kindEvent : UInt8 := 2

def lenPrefixSize : Nat := 4

def outputSessionIdSize : Nat := 8

inductive ProtocolError
  | frameTooLarge (advertised cap : Nat)
  | emptyFrame
  | unknownKind (kind : UInt8)
  deriving DecidableEq, Repr

def encodeFrame (kind : UInt8) (payload : List UInt8) : Except ProtocolError (List UInt8) :=
  let bodyLen := payload.length + 1
  if u32Max < bodyLen then .error (.frameTooLarge u32Max maxFrameLen)
  else if maxFrameLen < bodyLen then .error (.frameTooLarge bodyLen maxFrameLen)
  else .ok (leBytes lenPrefixSize bodyLen ++ kind :: payload)

/-- the length a prefix advertises, when it is legal -/
def decodeLength (bytes : List UInt8) : Except ProtocolError Nat :=
  let bodyLen := leValue bytes
  if bodyLen = 0 then .error .emptyFrame
  else if maxFrameLen < bodyLen then .error (.frameTooLarge bodyLen maxFrameLen)
  else .ok bodyLen

/-- the payload of an output frame: `u64 session_id (LE) | raw bytes` -/
def outputPayload (sessionId : Nat) (bytes : List UInt8) : List UInt8 :=
  leBytes outputSessionIdSize sessionId ++ bytes

def IsFrame (frame : List UInt8) : Prop := ∃ kind payload, encodeFrame kind payload = .ok frame

lemma encodeFrame_ok {kind : UInt8} {payload frame : List UInt8}
    (h : encodeFrame kind payload = .ok frame) :
    payload.length + 1 ≤ maxFrameLen ∧
      frame = leBytes lenPrefixSize (payload.length + 1) ++ kind :: payload := by
  unfold encodeFrame at h
  dsimp only at h
  split at h
  · cases h
  · split at h
    · cases h
    · rename_i hlen
      cases h
      exact ⟨Nat.le_of_not_lt hlen, rfl⟩

lemma encodeFrame_eq_ok {payload : List UInt8} (kind : UInt8)
    (h : payload.length + 1 ≤ maxFrameLen) :
    encodeFrame kind payload = .ok (leBytes lenPrefixSize (payload.length + 1) ++ kind :: payload) := by
  have hu : ¬ u32Max < payload.length + 1 := by
    unfold maxFrameLen at h
    unfold u32Max
    omega
  unfold encodeFrame
  dsimp only
  rw [if_neg hu, if_neg (Nat.not_lt.mpr h)]

/-- **The prefix of a frame is legal**: what follows it may be anything. -/
theorem frame_length {frame : List UInt8} (h : IsFrame frame) (rest : List UInt8) :
    ∃ bodyLen, decodeLength ((frame ++ rest).take lenPrefixSize) = .ok bodyLen ∧
      bodyLen ≤ maxFrameLen ∧ frame.length = lenPrefixSize + bodyLen := by
  obtain ⟨kind, payload, he⟩ := h
  obtain ⟨hlen, rfl⟩ := encodeFrame_ok he
  have hpre : ((leBytes lenPrefixSize (payload.length + 1) ++ kind :: payload) ++ rest).take
      lenPrefixSize = leBytes lenPrefixSize (payload.length + 1) := by
    rw [List.append_assoc]
    exact List.take_left' (leBytes_length _ _)
  have hval : leValue (leBytes lenPrefixSize (payload.length + 1)) = payload.length + 1 := by
    refine leValue_leBytes ?_
    unfold maxFrameLen at hlen
    unfold lenPrefixSize
    omega
  refine ⟨payload.length + 1, ?_, hlen, ?_⟩
  · rw [hpre, decodeLength, hval, if_neg (Nat.succ_ne_zero _), if_neg (Nat.not_lt.mpr hlen)]
  · rw [List.length_append, leBytes_length, List.length_cons]

/-! ## a stream of frames -/

/-- the bytes are a prefix of whole frames, one after the other -/
def Framed (bytes : List UInt8) : Prop :=
  ∃ frames : List (List UInt8), (∀ f ∈ frames, IsFrame f) ∧ bytes <+: frames.flatten

lemma IsFrame.length_pos {frame : List UInt8} (h : IsFrame frame) : lenPrefixSize < frame.length := by
  obtain ⟨kind, payload, he⟩ := h
  obtain ⟨-, rfl⟩ := encodeFrame_ok he
  rw [List.length_append, leBytes_length, List.length_cons]
  omega

lemma Framed.decodeLength {bytes : List UInt8} (h : Framed bytes)
    (hlen : lenPrefixSize ≤ bytes.length) :
    ∃ bodyLen, Ptyd.decodeLength (bytes.take lenPrefixSize) = .ok bodyLen := by
  obtain ⟨frames, hf, rest, hrest⟩ := h
  cases frames with
  | nil =>
    have hnil : bytes = [] := (List.append_eq_nil_iff.mp hrest).1
    rw [hnil] at hlen
    exact absurd hlen (by decide)
  | cons f fs =>
    obtain ⟨n, hn, -⟩ := frame_length (hf f List.mem_cons_self) fs.flatten
    refine ⟨n, ?_⟩
    rw [← hn, ← List.flatten_cons, ← hrest, List.take_append_of_le_length hlen]

/-- **Frames are found again**: after a whole frame the stream is framed again. -/
theorem Framed.rest {frame rest : List UInt8} (hf : IsFrame frame) (h : Framed (frame ++ rest)) :
    Framed rest := by
  obtain ⟨frames, hfs, tail, htail⟩ := h
  cases frames with
  | nil =>
    have hnil : frame = [] := (List.append_eq_nil_iff.mp (List.append_eq_nil_iff.mp htail).1).1
    have hpos := hf.length_pos
    rw [hnil] at hpos
    exact absurd hpos (by decide)
  | cons g gs =>
    rw [List.flatten_cons, List.append_assoc] at htail
    obtain ⟨n, hn, -, hlen⟩ := frame_length hf (rest ++ tail)
    obtain ⟨m, hm, -, hlen'⟩ := frame_length (hfs g List.mem_cons_self) gs.flatten
    -- both frames have the length their common prefix advertises
    rw [htail, hm] at hn
    cases hn
    obtain ⟨-, hrest⟩ := List.append_inj htail (hlen.trans hlen'.symm)
    exact ⟨gs, fun f hf => hfs f (List.mem_cons_of_mem g hf), tail, hrest⟩

end TerminalManager.Ptyd
