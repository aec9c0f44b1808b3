import Scbl.Lemmas.Codec
import Scbl.Prudp.Serve

/-!
# Several packets in one datagram

A packet that carries its size ends where its encoder ended it, whatever follows. So cutting up the concatenation of encoded packets
finds these packets, in their order (`parsePackets_encoded`).
-/

namespace Scbl.Prudp

open Scbl.Lib Codec

/-- A packet of the encrypted stream that carries its size: it is well-formed, not compressed, empty when it is a syn, and its
payload fits the size field. -/
structure QPacket.Framed (p : QPacket) : Prop extends p.WellFormed where
  encrypted : p.source.streamType = .RVSec
  hasSize : p.flags.contains .hasSize = true
  uncompressed : p.useCompression = false
  syn : p.packetType = .syn → p.payload = []
  length : p.payload.length < 65535

/-- A packet with the checksum it goes out with. -/
def QPacket.sealed (zlib : Zlib) (ctx : Context) (p : QPacket) : Except Panic QPacket := do
  let checksum ← p.calcChecksum zlib ctx
  return { p with checksum }

namespace Framing

/-- The payload of a framed packet is decoded to what it was. -/
theorem decodePayload_framed {zlib : Zlib} {ctx : Context} {p : QPacket} (h : p.Framed) {wire : Bytes}
    (hw : p.wire zlib ctx = .ok wire) : decodePayload zlib ctx p.packetType p.source wire = .ok (p.payload, false) := by
  by_cases hsyn : p.packetType = .syn
  · have henc : ¬ p.Encrypted := fun henc => henc.1 hsyn
    rw [wire_plain henc, packPayload_plain zlib h.uncompressed, if_pos (h.syn hsyn)] at hw
    rw [decodePayload_plain zlib ctx henc, h.syn hsyn, Except.ok.inj hw]
  · exact decodePayload_wire h.uncompressed ⟨hsyn, h.encrypted⟩ hw

/-- An encoded packet passes its check. -/
theorem validate_frame {ctx : Context} {p q : QPacket} {fields wire : Bytes} (hd : q.destination = p.destination)
    (hsum : q.checksum = frameSum ctx p fields wire) :
    q.validate ctx (p.frame fields wire ++ [frameSum ctx p fields wire]) = .ok () := by
  unfold QPacket.validate
  rw [List.dropLast_concat, hd, hsum]
  exact if_neg (not_not_intro rfl)

/-- Cutting up an encoded packet and what follows it finds the packet and goes on with what follows. -/
theorem parsePackets_frame (zlib : Zlib) {ctx : Context} (hkey : KeyFits ctx) {p : QPacket} (h : p.Framed) :
    ∃ data q, p.toBytes zlib ctx = .ok data ∧ p.sealed zlib ctx = .ok q ∧ ∀ rest, parsePackets zlib ctx (data ++ rest) =
      { parsePackets zlib ctx rest with packets := (q, .ok ()) :: (parsePackets zlib ctx rest).packets } := by
  obtain ⟨wire, hw⟩ := exists_wire zlib h.uncompressed (fun _ => hkey)
  have hf := typeFields_eq h.toHasFields
  have hsealed : p.sealed zlib ctx = .ok { p with checksum := frameSum ctx p p.optionalBytes wire } := by
    rw [QPacket.sealed, calcChecksum_eq hf hw]
    rfl
  refine ⟨_, _, toBytes_eq hf hw, hsealed, fun rest => ?_⟩
  generalize hsum : frameSum ctx p p.optionalBytes wire = sum
  have hdecode : QPacket.fromBytes zlib ctx ((p.frame p.optionalBytes wire ++ [sum]) ++ rest) =
      .ok ({ p with checksum := sum }, (p.frame p.optionalBytes wire ++ [sum]).length) := by
    have hdel := delimits_plain h.hasSize h.uncompressed h.length hw rest
    have hr := fromReader_frame zlib ctx h.toWellFormed hdel sum
    rw [decodePayload_framed h hw] at hr
    have hlen : (p.frame p.optionalBytes wire ++ sum :: rest).length - rest.length =
        (p.frame p.optionalBytes wire ++ [sum]).length := by
      simp only [List.length_append, List.length_cons, List.length_nil]
      omega
    rw [QPacket.fromBytes, List.append_assoc, List.singleton_append, hr, ← hlen, ← h.uncompressed]
    rfl
  have hvalid : QPacket.validate { p with checksum := sum } ctx (p.frame p.optionalBytes wire ++ [sum]) = .ok () := by
    rw [← hsum]
    exact validate_frame rfl rfl
  rw [parsePackets_cons hdecode, List.drop_left, List.take_left, hvalid]

end Framing

open Framing

/-- Cutting up the concatenation of encoded packets finds exactly these packets with their checksums, in their order, each passing
its check, and ends at the end. -/
theorem parsePackets_encoded (zlib : Zlib) {ctx : Context} (hkey : KeyFits ctx) {ps : List QPacket} (h : ∀ p ∈ ps, p.Framed) :
    ∃ datas qs, ps.mapM (QPacket.toBytes zlib ctx) = .ok datas ∧ ps.mapM (QPacket.sealed zlib ctx) = .ok qs ∧
      parsePackets zlib ctx datas.flatten = { packets := qs.map (fun q => (q, .ok ())), stop := .finished } := by
  induction ps with
  | nil => exact ⟨[], [], rfl, rfl, by simp⟩
  | cons p ps ih =>
    obtain ⟨data, q, hto, hsealed, hparse⟩ := parsePackets_frame zlib hkey (h p List.mem_cons_self)
    obtain ⟨datas, qs, htos, hsealeds, hparses⟩ := ih (fun p hp => h p (List.mem_cons_of_mem _ hp))
    refine ⟨data :: datas, q :: qs, ?_, ?_, ?_⟩
    · rw [List.mapM_cons, hto, htos]
      rfl
    · rw [List.mapM_cons, hsealed, hsealeds]
      rfl
    · rw [List.flatten_cons, hparse, hparses]
      rfl

namespace Framing

/-- A library that only gives back what it was given. -/
def identity : Zlib where
  compress data := data
  decompress data limit := if data.length ≤ limit then some data else none

/-- A syn and the data packet after it. -/
def synThenData : List QPacket :=
  [{ source := { port := 15, streamType := .RVSec }
     destination := { port := 1, streamType := .RVSec }
     packetType := .syn
     flags := BitFlags.insert (BitFlags.insert {} .needAck) .hasSize
     connSignature := some 0 },
   { source := { port := 15, streamType := .RVSec }
     destination := { port := 1, streamType := .RVSec }
     packetType := .data
     flags := BitFlags.insert (BitFlags.insert {} .reliable) .hasSize
     sessionId := 0xA7
     signature := 0xDD929391
     fragmentId := some 0
     sequence := 4
     payload := [0x0E, 0x00, 0x00, 0x00] }]

end Framing

/-- A syn and a data packet in one datagram are found. -/
theorem parsePackets_encoded_synThenData :
    ∃ datas qs, synThenData.mapM (QPacket.toBytes identity (Context.splinterCellBlacklist [])) = .ok datas ∧
      synThenData.mapM (QPacket.sealed identity (Context.splinterCellBlacklist [])) = .ok qs ∧
      parsePackets identity (Context.splinterCellBlacklist []) datas.flatten =
        { packets := qs.map (fun q => (q, .ok ())), stop := .finished } := by
  refine parsePackets_encoded identity (by decide +kernel) (fun p hp => ?_)
  simp only [synThenData, List.mem_cons, List.not_mem_nil, or_false] at hp
  rcases hp with rfl | rfl
  · exact ⟨⟨⟨by decide, by decide⟩, by decide, by decide⟩, rfl, by decide, rfl, fun _ => rfl, by decide⟩
  · exact ⟨⟨⟨by decide, by decide⟩, by decide, by decide⟩, rfl, by decide, rfl, (fun h => by cases h), by decide⟩

end Scbl.Prudp
