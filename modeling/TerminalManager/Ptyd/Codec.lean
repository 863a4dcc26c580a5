import TerminalManager.Lib.Chunked
import TerminalManager.Ptyd.Frame

/-!
# Reading frames

`read_frame` and `write_frame` (`protocol/codec.rs`), `split_header` (`protocol/frame.rs`) and the
payload of an output frame (`protocol/message.rs`).  A reader is the stream in the pieces it arrives
in.

* `readFrame_frame`, `readFrame_some`   a frame is read back, and what is read is a frame;
* `ReadsTo`      the frames that repeated reading gives, up to a clean end of the stream;
* `frame_codec`  **main result**: reading is the inverse of writing, for every list of frames and
  every way to cut the stream.
-/

namespace TerminalManager.Ptyd
open LittleEndian

structure Frame where
  kind : UInt8
  payload : List UInt8
  deriving DecidableEq, Repr

inductive ReadError
  | protocol (error : ProtocolError)
  | unexpectedEof
  | invalidData
  deriving DecidableEq, Repr

/-- `encode_frame`, which appends to `out` -/
def encodeFrameInto (kind : UInt8) (payload out : List UInt8) : Except ProtocolError Unit × List UInt8 :=
  let bodyLen := payload.length + 1
  if u32Max < bodyLen then (.error (.frameTooLarge u32Max maxFrameLen), out)
  else if maxFrameLen < bodyLen then (.error (.frameTooLarge bodyLen maxFrameLen), out)
  else
    let out := out ++ leBytes lenPrefixSize bodyLen
    let out := out ++ [kind]
    let out := out ++ payload
    (.ok (), out)

def isKind (kind : UInt8) : Bool := kind == kindControl || kind == kindOutput || kind == kindEvent

def splitHeader : List UInt8 → Except ProtocolError (UInt8 × List UInt8)
  | [] => .error .emptyFrame
  | kind :: payload =>
    if isKind kind = false then .error (.unknownKind kind)
    else if u32Max < payload.length then .error (.frameTooLarge u32Max maxFrameLen)
    else .ok (kind, payload)

def readFrame (reader : List (List UInt8)) : Except ReadError (Option Frame) × List (List UInt8) :=
  let lenBuf := Chunked.fill lenPrefixSize [] reader
  if lenBuf.1.length < lenPrefixSize then
    if lenBuf.1 = [] then (.ok none, lenBuf.2) else (.error .unexpectedEof, lenBuf.2)
  else
    match decodeLength lenBuf.1 with
    | .error e => (.error (.protocol e), lenBuf.2)
    | .ok bodyLen =>
      let body := Chunked.fill bodyLen [] lenBuf.2
      if body.1.length < bodyLen then (.error .unexpectedEof, body.2)
      else
        match splitHeader body.1 with
        | .error e => (.error (.protocol e), body.2)
        | .ok (kind, payload) => (.ok (some ⟨kind, payload⟩), body.2)

def decodeOutputPayload (payload : List UInt8) : Except ReadError (Nat × List UInt8) :=
  if payload.length < outputSessionIdSize then .error .invalidData
  else .ok (leValue (payload.take outputSessionIdSize), payload.drop outputSessionIdSize)

/-- the frames, one after the other -/
def encodeFrames : List Frame → Except ProtocolError (List UInt8)
  | [] => .ok []
  | f :: fs => do
    let bytes ← encodeFrame f.kind f.payload
    let rest ← encodeFrames fs
    .ok (bytes ++ rest)

/-- repeated reading gives these frames and then a clean end of the stream -/
inductive ReadsTo : List (List UInt8) → List Frame → Prop
  | nil {reader rest : List (List UInt8)} (h : readFrame reader = (.ok none, rest)) : ReadsTo reader []
  | cons {reader rest : List (List UInt8)} {f : Frame} {fs : List Frame}
      (h : readFrame reader = (.ok (some f), rest)) (hs : ReadsTo rest fs) : ReadsTo reader (f :: fs)

/-! ## writing -/

/-- the buffer grows by the frame, or stays as it is -/
theorem encodeFrameInto_eq (kind : UInt8) (payload out : List UInt8) :
    encodeFrameInto kind payload out = match encodeFrame kind payload with
      | .ok bytes => (.ok (), out ++ bytes)
      | .error e => (.error e, out) := by
  unfold encodeFrameInto encodeFrame
  dsimp only
  split
  · rfl
  · split
    · rfl
    · rw [List.append_assoc, List.append_assoc]
      rfl

/-! ## reading one frame -/

variable {reader rest : List (List UInt8)} {kind : UInt8} {payload bytes tail : List UInt8} {f : Frame}

/-- nothing is left to read -/
lemma readFrame_nil (h : reader.flatten = []) : ∃ rest, readFrame reader = (.ok none, rest) := by
  have hlen : (Chunked.fill lenPrefixSize [] reader).1 = [] := by
    rw [Chunked.fill_fst, h, List.take_nil]
  unfold readFrame
  dsimp only
  rw [hlen, if_pos (by decide), if_pos rfl]
  exact ⟨_, rfl⟩

/-- **A frame is read back**, and the stream goes on after it. -/
theorem readFrame_frame (hk : isKind kind = true) (he : encodeFrame kind payload = .ok bytes)
    (h : reader.flatten = bytes ++ tail) :
    ∃ rest, readFrame reader = (.ok (some ⟨kind, payload⟩), rest) ∧ rest.flatten = tail := by
  obtain ⟨hle, rfl⟩ := encodeFrame_ok he
  have hlt : payload.length + 1 < 256 ^ lenPrefixSize := by
    unfold maxFrameLen at hle
    unfold lenPrefixSize
    omega
  have hlen := leBytes_length lenPrefixSize (payload.length + 1)
  rw [List.append_assoc] at h
  -- the length
  have h1 : (Chunked.fill lenPrefixSize [] reader).1 = leBytes lenPrefixSize (payload.length + 1) := by
    rw [Chunked.fill_fst, h, List.take_left' hlen]
  have h2 : (Chunked.fill lenPrefixSize [] reader).2.flatten = kind :: payload ++ tail := by
    rw [Chunked.fill_snd, h, List.drop_left' hlen]
  have hdec : decodeLength (leBytes lenPrefixSize (payload.length + 1)) = .ok (payload.length + 1) := by
    rw [decodeLength, leValue_leBytes hlt, if_neg (Nat.succ_ne_zero _), if_neg (Nat.not_lt.mpr hle)]
  -- the body
  have h3 : (Chunked.fill (payload.length + 1) [] (Chunked.fill lenPrefixSize [] reader).2).1 =
      kind :: payload := by
    rw [Chunked.fill_fst, h2]
    exact List.take_left' rfl
  have h4 : (Chunked.fill (payload.length + 1) [] (Chunked.fill lenPrefixSize [] reader).2).2.flatten =
      tail := by
    rw [Chunked.fill_snd, h2]
    exact List.drop_left' rfl
  have hsplit : splitHeader (kind :: payload) = .ok (kind, payload) := by
    have hu : ¬u32Max < payload.length := by
      unfold maxFrameLen at hle
      unfold u32Max
      omega
    rw [splitHeader, hk, if_neg (by decide), if_neg hu]
  unfold readFrame
  dsimp only
  rw [h1, if_neg (by rw [hlen]; exact Nat.lt_irrefl _), hdec]
  dsimp only
  rw [h3, List.length_cons, if_neg (Nat.lt_irrefl _), hsplit]
  exact ⟨_, rfl, h4⟩

/-- a clean end is the end of the stream -/
lemma readFrame_none (h : readFrame reader = (.ok none, rest)) : reader.flatten = [] := by
  unfold readFrame at h
  dsimp only at h
  split at h
  · split at h
    · rename_i hnil
      rw [Chunked.fill_fst] at hnil
      rcases List.take_eq_nil_iff.mp hnil with h0 | h0
      · cases h0
      · exact h0
    · cases h
  · split at h
    · cases h
    · split at h
      · cases h
      · split at h
        · cases h
        · cases h

lemma decodeLength_ok {l : List UInt8} {n : Nat} (h : decodeLength l = .ok n) :
    leValue l = n ∧ n ≠ 0 ∧ n ≤ maxFrameLen := by
  unfold decodeLength at h
  dsimp only at h
  split at h
  · cases h
  · rename_i h0
    split at h
    · cases h
    · rename_i hle
      cases h
      exact ⟨rfl, h0, Nat.le_of_not_lt hle⟩

lemma splitHeader_ok {l : List UInt8} (h : splitHeader l = .ok (kind, payload)) :
    l = kind :: payload ∧ isKind kind = true := by
  cases l with
  | nil => cases h
  | cons k p =>
    by_cases hk : isKind k = false
    · rw [splitHeader, if_pos hk] at h
      cases h
    · by_cases hu : u32Max < p.length
      · rw [splitHeader, if_neg hk, if_pos hu] at h
        cases h
      · rw [splitHeader, if_neg hk, if_neg hu] at h
        cases h
        exact ⟨rfl, by simpa using hk⟩

/-- **What is read is a frame** of the stream. -/
theorem readFrame_some (h : readFrame reader = (.ok (some f), rest)) : isKind f.kind = true ∧
    ∃ bytes, encodeFrame f.kind f.payload = .ok bytes ∧ reader.flatten = bytes ++ rest.flatten := by
  unfold readFrame at h
  dsimp only at h
  split at h
  · split at h
    · cases h
    · cases h
  · rename_i hlen
    split at h
    · cases h
    · rename_i bodyLen hdec
      split at h
      · cases h
      · rename_i hbody
        split at h
        · cases h
        · rename_i kind payload hsplit
          cases h
          obtain ⟨hval, -, hle⟩ := decodeLength_ok hdec
          obtain ⟨hcons, hk⟩ := splitHeader_ok hsplit
          have hfull : (Chunked.fill lenPrefixSize [] reader).1.length = lenPrefixSize := by
            have hmax : (Chunked.fill lenPrefixSize [] reader).1.length ≤ lenPrefixSize := by
              rw [Chunked.fill_fst]
              exact List.length_take_le _ _
            omega
          have hfull' : bodyLen = payload.length + 1 := by
            have hmax : (Chunked.fill bodyLen [] (Chunked.fill lenPrefixSize [] reader).2).1.length ≤
                bodyLen := by
              rw [Chunked.fill_fst]
              exact List.length_take_le _ _
            rw [hcons, List.length_cons] at hmax hbody
            omega
          have hpayload : payload.length + 1 ≤ maxFrameLen := hfull' ▸ hle
          have hpre := leBytes_leValue (Chunked.fill lenPrefixSize [] reader).1
          rw [hfull, hval, hfull'] at hpre
          refine ⟨hk, _, encodeFrame_eq_ok kind hpayload, ?_⟩
          calc reader.flatten
              = (Chunked.fill lenPrefixSize [] reader).1 ++ (Chunked.fill lenPrefixSize [] reader).2.flatten := by
                rw [Chunked.fill_fst, Chunked.fill_snd, List.take_append_drop]
            _ = (Chunked.fill lenPrefixSize [] reader).1 ++ ((kind :: payload) ++
                (Chunked.fill bodyLen [] (Chunked.fill lenPrefixSize [] reader).2).2.flatten) := by
                rw [← hcons, Chunked.fill_fst bodyLen, Chunked.fill_snd bodyLen, List.take_append_drop]
            _ = _ := by rw [← List.append_assoc, hpre]

/-! ## reading a stream -/

lemma ReadsTo.unique {fs gs : List Frame} (h : ReadsTo reader fs) (h' : ReadsTo reader gs) : fs = gs := by
  induction h generalizing gs with
  | nil h =>
    cases h' with
    | nil h' => rfl
    | cons h' hs' =>
      rw [h] at h'
      cases h'
  | cons h hs ih =>
    cases h' with
    | nil h' =>
      rw [h] at h'
      cases h'
    | cons h' hs' =>
      rw [h] at h'
      cases h'
      rw [ih hs']

/-- frames that are written are read -/
theorem readsTo_frames {fs : List Frame} (hk : ∀ f ∈ fs, isKind f.kind = true)
    (he : encodeFrames fs = .ok bytes) (h : reader.flatten = bytes) : ReadsTo reader fs := by
  induction fs generalizing reader bytes with
  | nil =>
    cases he
    obtain ⟨rest, hr⟩ := readFrame_nil h
    exact .nil hr
  | cons f fs ih =>
    obtain ⟨hf, hfs⟩ := List.forall_mem_cons.mp hk
    unfold encodeFrames at he
    cases h1 : encodeFrame f.kind f.payload with
    | error e =>
      rw [h1] at he
      cases he
    | ok x =>
      cases h2 : encodeFrames fs with
      | error e =>
        rw [h1, h2] at he
        cases he
      | ok y =>
        rw [h1, h2] at he
        cases he
        obtain ⟨rest, hr, hrest⟩ := readFrame_frame hf h1 h
        exact .cons hr (ih hfs h2 hrest)

/-- frames that are read were written -/
theorem ReadsTo.encode {fs : List Frame} (h : ReadsTo reader fs) :
    (∀ f ∈ fs, isKind f.kind = true) ∧ encodeFrames fs = .ok reader.flatten := by
  induction h with
  | nil h =>
    rw [readFrame_none h]
    exact ⟨fun f hf => (by cases hf), rfl⟩
  | cons h hs ih =>
    obtain ⟨hk, bytes, he, hbytes⟩ := readFrame_some h
    obtain ⟨hks, hes⟩ := ih
    refine ⟨List.forall_mem_cons.mpr ⟨hk, hks⟩, ?_⟩
    rw [encodeFrames, he, hes, hbytes]
    rfl

lemma encodeFrames_ok {fs : List Frame} (h : ∀ f ∈ fs, f.payload.length < maxFrameLen) :
    ∃ bytes, encodeFrames fs = .ok bytes := by
  induction fs with
  | nil => exact ⟨[], rfl⟩
  | cons f fs ih =>
    obtain ⟨hf, hfs⟩ := List.forall_mem_cons.mp h
    obtain ⟨rest, hrest⟩ := ih hfs
    rw [encodeFrames, encodeFrame_eq_ok f.kind hf, hrest]
    exact ⟨_, rfl⟩

/-! ## output frames -/

theorem decodeOutputPayload_outputPayload (sessionId : UInt64) (bytes : List UInt8) :
    decodeOutputPayload (outputPayload sessionId.toNat bytes) = .ok (sessionId.toNat, bytes) := by
  have hlen := leBytes_length outputSessionIdSize sessionId.toNat
  have hge : ¬(outputPayload sessionId.toNat bytes).length < outputSessionIdSize := by
    rw [outputPayload, List.length_append, hlen]
    omega
  rw [decodeOutputPayload, if_neg hge, outputPayload, List.take_left' hlen, List.drop_left' hlen,
    leValue_leBytes sessionId.toNat_lt]

/-- what is decoded is what a payload is made of -/
theorem decodeOutputPayload_ok {sessionId : Nat}
    (h : decodeOutputPayload payload = .ok (sessionId, bytes)) : payload = outputPayload sessionId bytes := by
  unfold decodeOutputPayload at h
  split at h
  · cases h
  · rename_i hlen
    cases h
    have hfull : (payload.take outputSessionIdSize).length = outputSessionIdSize :=
      List.length_take_of_le (Nat.le_of_not_lt hlen)
    have hback := leBytes_leValue (payload.take outputSessionIdSize)
    rw [hfull] at hback
    rw [outputPayload, hback, List.take_append_drop]

/-- **Reading is the inverse of writing.** -/
theorem frame_codec :
    -- what is written is read back, in any pieces, and nothing else is
    (∀ frames : List Frame, (∀ f ∈ frames, isKind f.kind = true ∧ f.payload.length < maxFrameLen) →
      ∃ bytes, encodeFrames frames = .ok bytes ∧
        ∀ reader : List (List UInt8), reader.flatten = bytes → ∀ fs, ReadsTo reader fs ↔ fs = frames) ∧
    -- a stream that is read to a clean end is what the frames are written as
    (∀ (reader : List (List UInt8)) (frames : List Frame), ReadsTo reader frames →
      encodeFrames frames = .ok reader.flatten) ∧
    -- a failed write leaves the buffer alone
    (∀ (kind : UInt8) (payload out : List UInt8) (e : ProtocolError) (out' : List UInt8),
      encodeFrameInto kind payload out = (.error e, out') → out' = out) ∧
    -- session ids
    ∀ (sessionId : UInt64) (bytes : List UInt8),
      decodeOutputPayload (outputPayload sessionId.toNat bytes) = .ok (sessionId.toNat, bytes) := by
  refine ⟨fun frames h => ?_, fun reader frames h => h.encode.2, fun kind payload out e out' h => ?_,
    decodeOutputPayload_outputPayload⟩
  · obtain ⟨bytes, hb⟩ := encodeFrames_ok fun f hf => (h f hf).2
    refine ⟨bytes, hb, fun reader hr fs => ?_⟩
    have hread := readsTo_frames (fun f hf => (h f hf).1) hb hr
    constructor
    · exact fun hfs => hfs.unique hread
    · rintro rfl
      exact hread
  · rw [encodeFrameInto_eq] at h
    cases he : encodeFrame kind payload with
    | ok b =>
      rw [he] at h
      cases h
    | error e' =>
      rw [he] at h
      cases h
      rfl

end TerminalManager.Ptyd
