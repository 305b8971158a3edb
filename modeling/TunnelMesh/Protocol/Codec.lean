import TunnelMesh.PrefixCodec
import TunnelMesh.Protocol.Frame

namespace TunnelMesh.Protocol

open Bytes Protocol.Frame List PrefixCodec Nat

def headerSize : ℕ := 16

def Frame.header (f : Frame) : List UInt8 :=
  [f.version, f.type] ++ putBigEndian 2 f.flags.toNat ++ putBigEndian 4 f.streamID.toNat ++
    putBigEndian 4 (uint32 f.payload.length) ++ putBigEndian 4 f.window.toNat

variable (limit : ℤ)

def encoderLimit : ℤ := if limit ≤ 0 then maxPayload else limit

def decoderLimit : ℤ := if limit ≤ 0 ∨ maxPayload < limit then maxPayload else limit

def writeFrame (f : Frame) : Except FrameError (List UInt8) := do
  if encoderLimit limit < f.payload.length then .error (.payloadTooLarge none)
  else
    f.validate
    .ok (f.header ++ f.payload)

def readFull (n : ℕ) (input : List UInt8) : Except FrameError (List UInt8 × List UInt8) :=
  if input.length < n then .error (if input = [] then .eof else .unexpectedEOF)
  else .ok (input.take n, input.drop n)

def headerFrame (h : List UInt8) : Frame where
  version := h.getD 0 0
  type := h.getD 1 0
  flags := UInt16.ofNat (bigEndian (slice h 2 4))
  streamID := UInt32.ofNat (bigEndian (slice h 4 8))
  window := UInt32.ofNat (bigEndian (slice h 12 16))
  payload := []

def headerLength (h : List UInt8) : ℕ := bigEndian (slice h 8 12)

def readPayload (n : ℕ) (input : List UInt8) : Except FrameError (List UInt8 × List UInt8) :=
  if 0 < n then readFull n input else .ok ([], input)

def readFrame (input : List UInt8) : Except FrameError (Frame × List UInt8) := do
  let (h, rest) ← readFull headerSize input
  let f := headerFrame h
  let n := headerLength h
  if f.version ≠ currentVersion then .error (.unsupportedVersion f.version)
  else if knownFrameType f.type = false then .error (.unknownFrameType f.type)
  else if decoderLimit limit < n then .error (.payloadTooLarge none)
  else if isMetadataFrame f.type ∧ maxMetadataPayload < n then .error (.payloadTooLarge none)
  else
    let (payload, rest) ← readPayload n rest
    let f : Frame := { f with payload }
    f.validate
    .ok (f, rest)

section Header

theorem length_header (f : Frame) : f.header.length = headerSize := by rfl

theorem headerFrame_header (f : Frame) : headerFrame f.header = { f with payload := [] } := by
  have hf : slice f.header 2 4 = putBigEndian 2 f.flags.toNat := rfl
  have hid : slice f.header 4 8 = putBigEndian 4 f.streamID.toNat := rfl
  have hw : slice f.header 12 16 = putBigEndian 4 f.window.toNat := rfl
  simp only [headerFrame, hf, hid, hw]
  rw [bigEndian_putBigEndian (UInt16.toNat_lt f.flags), bigEndian_putBigEndian (UInt32.toNat_lt f.streamID),
    bigEndian_putBigEndian (UInt32.toNat_lt f.window), UInt16.ofNat_toNat, UInt32.ofNat_toNat, UInt32.ofNat_toNat]
  rfl

theorem headerLength_header (f : Frame) : headerLength f.header = uint32 f.payload.length := by
  have hl : slice f.header 8 12 = putBigEndian 4 (uint32 f.payload.length) := rfl
  rw [headerLength, hl]
  exact bigEndian_putBigEndian (mod_lt _ (by decide))

variable {h : List UInt8}

theorem putBigEndian_slice (hj : j ≤ h.length) (hw : j - i = width) :
    putBigEndian width (bigEndian (slice h i j)) = slice h i j := by
  have hl : (slice h i j).length = width := by rw [length_slice hj, hw]
  have hput := putBigEndian_bigEndian (slice h i j)
  rwa [hl] at hput

theorem bigEndian_slice_lt (hj : j ≤ h.length) (hw : j - i = width) : bigEndian (slice h i j) < 256 ^ width := by
  have hlt := bigEndian_lt (slice h i j)
  rwa [length_slice hj, hw] at hlt

theorem slice_zero_two (hl : 2 ≤ h.length) : [h.getD 0 0, h.getD 1 0] = slice h 0 2 := by
  match h, hl with
  | _ :: _ :: _, _ => rfl

theorem header_eq_of_fields {f : Frame} (hl : h.length = headerSize)
    (hf : headerFrame h = { f with payload := [] }) (hp : headerLength h = f.payload.length) : f.header = h := by
  have hs : h.length = 16 := hl
  have hv : h.getD 0 0 = f.version := congrArg version hf
  have ht : h.getD 1 0 = f.type := congrArg type hf
  have hflags : bigEndian (slice h 2 4) = f.flags.toNat := by
    rw [← congrArg flags hf]
    have hlt := bigEndian_slice_lt (h := h) (i := 2) (j := 4) (by omega) rfl
    exact (UInt16.toNat_ofNat_of_lt' hlt).symm
  have hid : bigEndian (slice h 4 8) = f.streamID.toNat := by
    rw [← congrArg streamID hf]
    have hlt := bigEndian_slice_lt (h := h) (i := 4) (j := 8) (by omega) rfl
    exact (UInt32.toNat_ofNat_of_lt' hlt).symm
  have hlen : bigEndian (slice h 8 12) = uint32 f.payload.length := by
    rw [← hp, headerLength, uint32, mod_eq_of_lt]
    exact bigEndian_slice_lt (h := h) (i := 8) (j := 12) (by omega) rfl
  have hw : bigEndian (slice h 12 16) = f.window.toNat := by
    rw [← congrArg window hf]
    have hlt := bigEndian_slice_lt (h := h) (i := 12) (j := 16) (by omega) rfl
    exact (UInt32.toNat_ofNat_of_lt' hlt).symm
  calc f.header
      = slice h 0 2 ++ slice h 2 4 ++ slice h 4 8 ++ slice h 8 12 ++ slice h 12 16 := by
        rw [header, ← hv, ← ht, ← hflags, ← hid, ← hlen, ← hw, slice_zero_two (by omega),
          putBigEndian_slice (by omega) (by rfl), putBigEndian_slice (by omega) (by rfl),
          putBigEndian_slice (by omega) (by rfl), putBigEndian_slice (by omega) (by rfl)]
    _ = slice h 0 16 := by
        rw [slice_append_slice (by omega) (by omega), slice_append_slice (by omega) (by omega),
          slice_append_slice (by omega) (by omega), slice_append_slice (by omega) (by omega)]
    _ = h := by
        rw [← hs]
        rw [slice, take_length, drop_zero]

end Header

section Read

variable {limit : ℤ} {f : Frame}

theorem readFull_eq_ok : readFull n input = .ok (taken, rest) ↔ taken.length = n ∧ input = taken ++ rest := by
  rw [readFull, guard_eq_ok, not_lt]
  constructor
  · rintro ⟨hl, hok⟩
    cases hok
    exact ⟨length_take_of_le hl, (take_append_drop n input).symm⟩
  · rintro ⟨rfl, rfl⟩; exact ⟨by rw [length_append]; omega, by rw [take_left, drop_left]⟩

theorem readPayload_eq (n : ℕ) (input : List UInt8) : readPayload n input = readFull n input := by
  unfold readPayload
  cases n with
  | zero => exact (readFull_eq_ok.mpr ⟨rfl, rfl⟩).symm
  | succ n => rw [if_pos (succ_pos n)]

theorem uint32_payload (h : f.HeaderRules f.payload.length) : uint32 f.payload.length = f.payload.length := by
  apply mod_eq_of_lt
  have hmax := h.size
  unfold maxPayload at hmax
  omega

theorem readFrame_eq_ok : readFrame limit input = .ok (f, rest) ↔
      f.validate = .ok () ∧ f.payload.length ≤ decoderLimit limit ∧ input = f.header ++ f.payload ++ rest := by
  constructor
  · intro hread
    obtain ⟨⟨h, tail⟩, hh, hc⟩ := bind_eq_ok hread
    obtain ⟨hl, rfl⟩ := readFull_eq_ok.mp hh
    simp only [guard_eq_ok, readPayload_eq] at hc
    obtain ⟨-, -, hlimit, -, hp⟩ := hc
    obtain ⟨⟨payload, after⟩, ht, hv⟩ := bind_eq_ok hp
    obtain ⟨hs, rfl⟩ := readFull_eq_ok.mp ht
    obtain ⟨⟨⟩, hok, hresult⟩ := bind_eq_ok hv
    cases hresult
    have hb : (payload.length : ℤ) ≤ decoderLimit limit := by omega
    refine ⟨hok, hb, ?_⟩
    rw [header_eq_of_fields hl rfl hs.symm, append_assoc]
  · rintro ⟨hv, hlimit, rfl⟩
    obtain ⟨hr, -⟩ := validate_ok_iff.mp hv
    have hs := uint32_payload hr
    have hh : readFull headerSize (f.header ++ f.payload ++ rest) = .ok (f.header, f.payload ++ rest) :=
      readFull_eq_ok.mpr ⟨length_header f, append_assoc _ _ _⟩
    have hp : readFull f.payload.length (f.payload ++ rest) = .ok (f.payload, rest) :=
      readFull_eq_ok.mpr ⟨rfl, rfl⟩
    unfold readFrame
    simp only [hh, bind, Except.bind, headerFrame_header, headerLength_header, hs, readPayload_eq, hp,
      hv, guard_eq_ok, not_not, not_and, Bool.not_eq_false, not_lt]
    exact ⟨hr.version, hr.type, by omega, hr.metadata, trivial⟩

theorem writeFrame_eq_ok {bytes : List UInt8} : writeFrame limit f = .ok bytes ↔
      f.validate = .ok () ∧ f.payload.length ≤ encoderLimit limit ∧ bytes = f.header ++ f.payload := by
  unfold writeFrame
  rw [guard_eq_ok, Int.not_lt]
  constructor
  · rintro ⟨hl, hw⟩
    obtain ⟨⟨⟩, hv, hb⟩ := bind_eq_ok hw
    cases hb
    exact ⟨hv, hl, rfl⟩
  · rintro ⟨hv, hl, rfl⟩; exact ⟨hl, by rw [hv]; rfl⟩

-- The header that a decoder refuses: one that is cut off, or that breaks a rule
-- for its version, type, stream id or length.
def Malformed (limit : ℤ) (input : List UInt8) : Prop :=
  input.length < headerSize ∨
    ¬(headerFrame (input.take headerSize)).HeaderRules (headerLength (input.take headerSize)) ∨
    decoderLimit limit < headerLength (input.take headerSize)

theorem readFrame_malformed (h : Malformed limit input) : ∃ e, readFrame limit input = .error e := by
  cases hread : readFrame limit input with
  | error e => exact ⟨e, rfl⟩
  | ok read =>
    obtain ⟨f, rest⟩ := read
    obtain ⟨hv, hlimit, rfl⟩ := readFrame_eq_ok.mp hread
    obtain ⟨hr, -⟩ := validate_ok_iff.mp hv
    have hs := uint32_payload hr
    have ht : (f.header ++ f.payload ++ rest).take headerSize = f.header := by
      rw [append_assoc, ← length_header f, take_left]
    rcases h with hshort | hb | hl
    · rw [append_assoc, length_append, length_header] at hshort; omega
    · rw [ht, headerFrame_header, headerLength_header, hs] at hb; exact absurd { hr with } hb
    · rw [ht, headerLength_header, hs] at hl; omega

end Read

def frameCodec : PrefixCodec FrameError Frame UInt8 where
  valid f := f.validate = .ok () ∧ f.payload.length ≤ decoderLimit limit
  encode f := f.header ++ f.payload
  decode := readFrame limit
  decode_encode _ _ h := readFrame_eq_ok.mpr ⟨h.1, h.2, rfl⟩
  decode_sound _ _ _ h := by
    obtain ⟨hvalid, hlimit, hinput⟩ := readFrame_eq_ok.mp h
    exact ⟨⟨hvalid, hlimit⟩, hinput⟩

theorem mapM_writeFrame {limit : ℤ} {frames : List Frame}
    (h : ∀ f ∈ frames, f.validate = .ok () ∧ f.payload.length ≤ encoderLimit limit) :
    frames.mapM (writeFrame limit) = .ok (frames.map fun f => f.header ++ f.payload) := by
  induction frames with
  | nil => rfl
  | cons f frames ih =>
    obtain ⟨hv, hl⟩ := h f mem_cons_self
    have hh := writeFrame_eq_ok.mpr ⟨hv, hl, rfl⟩
    have ht := ih fun other ho => h other (mem_cons_of_mem f ho)
    rw [mapM_cons, hh, ht]
    rfl

theorem frames_roundTrip (writeLimit readLimit : ℤ) :
    (∀ f rest, f.validate = .ok () → f.payload.length ≤ encoderLimit writeLimit →
      f.payload.length ≤ decoderLimit readLimit →
      ∃ bytes, writeFrame writeLimit f = .ok bytes ∧ readFrame readLimit (bytes ++ rest) = .ok (f, rest)) ∧
    (∀ frames rest, (∀ f ∈ frames, f.validate = .ok () ∧ f.payload.length ≤ encoderLimit writeLimit ∧
        f.payload.length ≤ decoderLimit readLimit) → ∃ written, frames.mapM (writeFrame writeLimit) = .ok written ∧
        PrefixCodec.readMany (readFrame readLimit) frames.length (written.flatten ++ rest) = .ok (frames, rest)) ∧
    (∀ input f rest, readFrame readLimit input = .ok (f, rest) → f.payload.length ≤ encoderLimit writeLimit →
      ∃ bytes, writeFrame writeLimit f = .ok bytes ∧ input = bytes ++ rest) ∧
    (∀ n input frames rest, PrefixCodec.readMany (readFrame readLimit) n input = .ok (frames, rest) →
      (∀ f ∈ frames, f.payload.length ≤ encoderLimit writeLimit) →
      ∃ written, frames.mapM (writeFrame writeLimit) = .ok written ∧ input = written.flatten ++ rest) ∧
    ∀ input, Malformed readLimit input → ∃ e, readFrame readLimit input = .error e := by
  refine ⟨?_, ?_, ?_, ?_, fun input => readFrame_malformed⟩
  · intro f rest hvalid hwrite hread
    exact ⟨_, writeFrame_eq_ok.mpr ⟨hvalid, hwrite, rfl⟩, (frameCodec readLimit).decode_encode f rest ⟨hvalid, hread⟩⟩
  · intro frames rest hframes
    refine ⟨_, mapM_writeFrame fun f hf => ⟨(hframes f hf).1, (hframes f hf).2.1⟩, ?_⟩
    exact (frameCodec readLimit).readMany_encode frames rest fun f hf => ⟨(hframes f hf).1, (hframes f hf).2.2⟩
  · intro input f rest hread hwrite
    obtain ⟨⟨hvalid, -⟩, hinput⟩ := (frameCodec readLimit).decode_sound input f rest hread
    exact ⟨_, writeFrame_eq_ok.mpr ⟨hvalid, hwrite, rfl⟩, hinput⟩
  · intro n input frames rest hread hwrite
    obtain ⟨hvalid, hinput⟩ := (frameCodec readLimit).readMany_sound hread
    exact ⟨_, mapM_writeFrame fun f hf => ⟨(hvalid f hf).1, hwrite f hf⟩, hinput⟩

def sampleData : Frame := ⟨currentVersion, FrameType.data, 0, 3, 0, [104, 105]⟩

def samplePing : Frame := ⟨currentVersion, FrameType.ping, 0, 0, 0, []⟩

theorem frames_roundTrip_sample : ∃ written, [sampleData, samplePing].mapM (writeFrame 0) = .ok written ∧
      PrefixCodec.readMany (readFrame 0) 2 (written.flatten ++ [7]) = .ok ([sampleData, samplePing], [7]) := by
  apply (frames_roundTrip 0 0).2.1 [sampleData, samplePing] [7]
  intro f hf
  have hcases : f = sampleData ∨ f = samplePing := by simpa using hf
  rcases hcases with rfl | rfl
  · exact ⟨rfl, by decide, by decide⟩
  · exact ⟨rfl, by decide, by decide⟩

end TunnelMesh.Protocol
