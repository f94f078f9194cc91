import KenningRuntime.SessionBackends
import KenningRuntime.Uart

/-! The receiver over the functions that really read: whatever the UART brings and whenever it does, the
server does what it does on some list of bytes and failures, whose bytes are those of the UART. -/
namespace KenningRuntime
open ByteSource Transition

/-- `protocol_read_data` of a device: the status, the bytes it stored and what comes of the device;
`none` if it does not return. -/
abbrev Reader (R : Type) := ℕ → R → Option (Status × List UInt8 × R)

namespace Reader

/-! ### The functions of kenning_protocol.c over a device -/

section
variable {R : Type} (read : Reader R)

/-- `protocol_read_data` with a null pointer. -/
def protocolSkipData (n : ℕ) (r : R) : Option R := (read n r).map fun result => result.2.2

def receiveMessageHeader (r : R) : Option (Except Status MessageHdr × R) :=
  match read messageHdrSize r with
  | none => none
  | some (status, data, r) =>
    if checkProtocolStatus status ≠ statusOk then some (.error (checkProtocolStatus status), r)
    else some (.ok (MessageHdr.decode data), r)

section
variable (cfg : Config) {W : Type} (ldr : MsgLoader W)

def receivePayloadLoop : ℕ → ℕ → Status → W → R → Option (Status × W × R)
  | 0, _, status, w, r => some (status, w, r)
  | fuel+1, n, status, w, r =>
    if n = 0 then some (status, w, r)
    else
      let toRead := if cfg.messageRecvBufferSize > n then n else cfg.messageRecvBufferSize
      match read toRead r with
      | none => none
      | some (status, data, r) =>
        if checkProtocolStatus status ≠ statusOk then some (checkProtocolStatus status, w, r)
        else
          match ldr.save w data with
          | (saved, w) =>
            let status := if saved ≠ statusOk then kenningProtocolStatusMsgTooBig else status
            receivePayloadLoop fuel (n-toRead) status w r

def receiveMessagePayload (n : ℕ) (w : W) (r : R) : Option (Status × W × R) :=
  receivePayloadLoop read cfg ldr n n statusOk w r

/-- The status with which `receive_messages` refuses a header behind the first, if it does. -/
def refusedHeader (messageType : BitVec 38) (flowControlFlags : BitVec 2) (header : MessageHdr) :
    Option Status :=
  if header.messageType ≠ messageType then some kenningProtocolStatusInvalidMessageType
  else if header.flowControlFlags ≠ flowControlFlags then some kenningProtocolStatusFlowControlError
  else none

/-- The loop of `receive_messages`; `none` also if it takes more than `fuel` messages. -/
def receiveMessagesLoop (messageType : BitVec 38) (flowControlFlags : BitVec 2) :
    ℕ → MessageHdr → W → R → Option (Status × W × R)
  | 0, _, _, _ => none
  | fuel+1, header, w, r =>
    match (if header.flags.hasPayload
      then receiveMessagePayload read cfg ldr header.payloadSize.toNat w r
      else some (statusOk, w, r)) with
    | none => none
    | some (status, w, r) =>
      if status ≠ statusOk then some (status, w, r)
      else if header.flags.last then some (status, w, r)
      else
        match receiveMessageHeader read r with
        | none => none
        | some (.error status, r) => some (status, w, r)
        | some (.ok header, r) =>
          match refusedHeader messageType flowControlFlags header with
          | some status =>
            (protocolSkipData read header.payloadSize.toNat r).map fun r => (status, w, r)
          | none => receiveMessagesLoop messageType flowControlFlags fuel header w r

end

/-- `protocol_listen`, with the loaders behind it and the device. What it leaves is `none` if it calls
`reset` through a null loader. -/
def protocolListen (cfg : Config) {W : Type} (loaderCallback : W → MessageType → Option (MsgLoader W))
    (fuel : ℕ) (w : W) (r : R) : Option (Option (Except Status ProtocolEvent × W) × R) :=
  match receiveMessageHeader read r with
  | none => none
  | some (.error status, r) => some (some (.error status, w), r)
  | some (.ok header, r) =>
    if header.flowControlFlags ≠ flowControlTransmission ∧
        header.flowControlFlags ≠ flowControlRequest then
      (protocolSkipData read header.payloadSize.toNat r).map fun r =>
        (some (.error kenningProtocolStatusFlowControlError, w), r)
    else if header.flags.first = false then
      (protocolSkipData read header.payloadSize.toNat r).map fun r =>
        (some (.error kenningProtocolStatusFlowControlError, w), r)
    else
      match MessageType.ofNumber? header.messageType.toNat with
      | none => (protocolSkipData read header.payloadSize.toNat r).map fun r =>
          (some (.error kenningProtocolStatusInvalidMessageType, w), r)
      | some messageType =>
        let ldr := loaderCallback w messageType
        let event (w : W) : ProtocolEvent := {
          messageType
          flags := header.flags
          isRequest := header.flowControlFlags = flowControlRequest
          payloadSize := loaderWritten cfg ldr w%2^32 }
        if header.flags.hasPayload then
          match ldr with
          | none => some (none, r)
          | some ldr =>
            match ldr.reset w with
            | (loaderStatus, w) =>
              if loaderStatus ≠ statusOk then
                (protocolSkipData read header.payloadSize.toNat r).map fun r =>
                  (some (.error loaderStatus, w), r)
              else
                match receiveMessagesLoop read cfg ldr header.messageType header.flowControlFlags fuel
                  header w r with
                | none => none
                | some (status, w, r) =>
                  if status ≠ statusOk then some (some (.error status, w), r)
                  else some (some (.ok (event w), w), r)
        else some (some (.ok (event w), w), r)

/-- The server, the device and the line. -/
structure Station (cfg : Config) (S R : Type) where
  server : Server cfg S
  device : R
  tx : Tx

/-- One round of the main loop (app/src/main.c). -/
def mainRound {cfg : Config} {S : Type} (B : Build S) (fuel : ℕ) (station : Station cfg S R)
    (checksum : ℕ → BitVec 8) : Option (Station cfg S R) :=
  match protocolListen read cfg (loaderPicker B) fuel station.server station.device with
  | none => none
  | some (none, _) => none
  | some (some (.error _, server), r) => some ⟨server, r, station.tx⟩
  | some (some (.ok event, server), r) =>
    match handleProtocolEvent checksum B event server station.tx with
    | none => none
    | some handled => some ⟨handled.server, r, handled.tx⟩

end

/-! ### Refinement -/

section
variable {R : Type} {read : Reader R} {Took : R → Rx → R → Prop}

/-- Every read does what it does on a list of bytes and failures that the device went through, as
`Took` says. -/
structure Refines (read : Reader R) (Took : R → Rx → R → Prop) : Prop where
  refl : ∀ r, Took r [] r
  trans : ∀ {r r' r'' : R} {pre pre' : Rx}, Took r pre r' → Took r' pre' r'' → Took r (pre ++ pre') r''
  read : ∀ {n : ℕ} {r r' : R} {status : Status} {data : List UInt8},
    read n r = some (status, data, r') →
      ∃ pre, Took r pre r' ∧ ∀ rest, protocolReadData n (pre ++ rest) = (status, data, rest)

variable {r r' : R}

theorem protocolSkipData_refines (h : Refines read Took) {n : ℕ}
    (hskip : protocolSkipData read n r = some r') :
    ∃ pre, Took r pre r' ∧ ∀ rest, KenningRuntime.protocolSkipData n (pre ++ rest) = rest := by
  obtain ⟨⟨status, data, _⟩, hread, rfl⟩ := Option.map_eq_some_iff.mp hskip
  obtain ⟨pre, htook, hpre⟩ := h.read hread
  refine ⟨pre, htook, fun rest => ?_⟩
  rw [KenningRuntime.protocolSkipData, hpre]

theorem receiveMessageHeader_refines (h : Refines read Took) {result : Except Status MessageHdr}
    (hreceive : receiveMessageHeader read r = some (result, r')) :
    ∃ pre, Took r pre r' ∧
      ∀ rest, KenningRuntime.receiveMessageHeader (pre ++ rest) = (result, rest) := by
  rw [receiveMessageHeader] at hreceive
  split at hreceive
  · cases hreceive
  next status data r₁ hread =>
  obtain ⟨pre, htook, hpre⟩ := h.read hread
  split at hreceive
  · next hs =>
    cases hreceive
    refine ⟨pre, htook, fun rest => ?_⟩
    simp only [KenningRuntime.receiveMessageHeader, hpre, if_pos hs]
  · next hs =>
    cases hreceive
    refine ⟨pre, htook, fun rest => ?_⟩
    simp only [KenningRuntime.receiveMessageHeader, hpre, if_neg hs]

section
variable {cfg : Config} {W : Type} {ldr : MsgLoader W} {status status' : Status} {w w' : W}

theorem receivePayloadLoop_refines (h : Refines read Took) {fuel n : ℕ}
    (hloop : receivePayloadLoop read cfg ldr fuel n status w r = some (status', w', r')) :
    ∃ pre, Took r pre r' ∧ ∀ rest,
      KenningRuntime.receivePayloadLoop cfg ldr fuel n status w (pre ++ rest) =
        (status', w', rest) := by
  -- The induction is on the rounds; the bytes that they took are put one behind the other.
  induction fuel generalizing n status w r with
  | zero =>
    cases hloop
    exact ⟨[], h.refl r', fun rest => rfl⟩
  | succ fuel ih =>
    rw [receivePayloadLoop] at hloop
    split at hloop
    · next hn =>
      cases hloop
      refine ⟨[], h.refl r', fun rest => ?_⟩
      rw [KenningRuntime.receivePayloadLoop, if_pos hn, List.nil_append]
    next hn =>
    simp only at hloop
    split at hloop
    · cases hloop
    next status₁ data r₁ hread =>
    obtain ⟨pre, htook, hpre⟩ := h.read hread
    split at hloop
    · next hs =>
      cases hloop
      refine ⟨pre, htook, fun rest => ?_⟩
      simp only [KenningRuntime.receivePayloadLoop, if_neg hn, hpre, if_pos hs]
    · next hs =>
      obtain ⟨pre', htook', hpre'⟩ := ih hloop
      refine ⟨pre ++ pre', h.trans htook htook', fun rest => ?_⟩
      rw [KenningRuntime.receivePayloadLoop, if_neg hn, List.append_assoc]
      simp only [hpre, if_neg hs, hpre']

/-- With any larger number of rounds the loop does the same. -/
theorem receiveMessagesLoop_refines (h : Refines read Took) {messageType : BitVec 38}
    {flowControlFlags : BitVec 2} {fuel : ℕ} {header : MessageHdr}
    (hloop : receiveMessagesLoop read cfg ldr messageType flowControlFlags fuel header w r =
      some (status, w', r')) :
    ∃ pre, Took r pre r' ∧ ∀ rest fuel', fuel ≤ fuel' →
      KenningRuntime.receiveMessagesLoop cfg ldr messageType flowControlFlags fuel' header w
        (pre ++ rest) = (status, w', rest) := by
  induction fuel generalizing header w r with
  | zero => cases hloop
  | succ fuel ih =>
    rw [receiveMessagesLoop] at hloop
    split at hloop
    · cases hloop
    next status₁ w₁ r₁ hpayload =>
    -- The payload of this message, if it has one.
    obtain ⟨pre, htook, hpre⟩ : ∃ pre, Took r pre r₁ ∧ ∀ rest : Rx,
        (if header.flags.hasPayload
          then KenningRuntime.receiveMessagePayload cfg ldr header.payloadSize.toNat w (pre ++ rest)
          else (statusOk, w, pre ++ rest)) = (status₁, w₁, rest) := by
      split at hpayload
      · next hp =>
        obtain ⟨pre, htook, hpre⟩ := receivePayloadLoop_refines h hpayload
        exact ⟨pre, htook, fun rest => by rw [if_pos hp]; exact hpre rest⟩
      · next hp =>
        cases hpayload
        exact ⟨[], h.refl r, fun rest => if_neg hp⟩
    have hsucc {fuel' : ℕ} (hle : fuel+1 ≤ fuel') : ∃ k, fuel' = k+1 ∧ fuel ≤ k :=
      ⟨fuel'-1, by omega, by omega⟩
    split at hloop
    · next hs =>
      cases hloop
      refine ⟨pre, htook, fun rest fuel' hle => ?_⟩
      obtain ⟨k, rfl, -⟩ := hsucc hle
      simp only [KenningRuntime.receiveMessagesLoop, hpre, if_pos hs]
    next hs =>
    split at hloop
    · next hlast =>
      cases hloop
      refine ⟨pre, htook, fun rest fuel' hle => ?_⟩
      obtain ⟨k, rfl, -⟩ := hsucc hle
      simp only [KenningRuntime.receiveMessagesLoop, hpre, if_neg hs, if_pos hlast]
    next hlast =>
    -- The next header, and what becomes of it.
    split at hloop
    · cases hloop
    · next status₂ r₂ hheader =>
      cases hloop
      obtain ⟨pre', htook', hpre'⟩ := receiveMessageHeader_refines h hheader
      refine ⟨pre ++ pre', h.trans htook htook', fun rest fuel' hle => ?_⟩
      obtain ⟨k, rfl, -⟩ := hsucc hle
      rw [List.append_assoc]
      simp only [KenningRuntime.receiveMessagesLoop, hpre, if_neg hs, if_neg hlast, hpre']
    · next header₂ r₂ hheader =>
      obtain ⟨pre', htook', hpre'⟩ := receiveMessageHeader_refines h hheader
      rw [refusedHeader] at hloop
      by_cases htype : header₂.messageType ≠ messageType
      · rw [if_pos htype] at hloop
        obtain ⟨r₃, hskip, hr₃⟩ := Option.map_eq_some_iff.mp hloop
        cases hr₃
        obtain ⟨pre₃, htook₃, hpre₃⟩ := protocolSkipData_refines h hskip
        refine ⟨pre ++ (pre' ++ pre₃), h.trans htook (h.trans htook' htook₃), fun rest fuel' hle => ?_⟩
        obtain ⟨k, rfl, -⟩ := hsucc hle
        rw [List.append_assoc, List.append_assoc]
        simp only [KenningRuntime.receiveMessagesLoop, hpre, if_neg hs, if_neg hlast, hpre',
          if_pos htype, hpre₃]
      rw [if_neg htype] at hloop
      by_cases hflow : header₂.flowControlFlags ≠ flowControlFlags
      · rw [if_pos hflow] at hloop
        obtain ⟨r₃, hskip, hr₃⟩ := Option.map_eq_some_iff.mp hloop
        cases hr₃
        obtain ⟨pre₃, htook₃, hpre₃⟩ := protocolSkipData_refines h hskip
        refine ⟨pre ++ (pre' ++ pre₃), h.trans htook (h.trans htook' htook₃), fun rest fuel' hle => ?_⟩
        obtain ⟨k, rfl, -⟩ := hsucc hle
        rw [List.append_assoc, List.append_assoc]
        simp only [KenningRuntime.receiveMessagesLoop, hpre, if_neg hs, if_neg hlast, hpre',
          if_neg htype, if_pos hflow, hpre₃]
      · rw [if_neg hflow] at hloop
        obtain ⟨pre₃, htook₃, hpre₃⟩ := ih hloop
        refine ⟨pre ++ (pre' ++ pre₃), h.trans htook (h.trans htook' htook₃), fun rest fuel' hle => ?_⟩
        obtain ⟨k, rfl, hk⟩ := hsucc hle
        rw [List.append_assoc, List.append_assoc]
        simp only [KenningRuntime.receiveMessagesLoop, hpre, if_neg hs, if_neg hlast, hpre',
          if_neg htype, if_neg hflow, hpre₃ rest k hk]

theorem receiveMessages_refines (h : Refines read Took) {fuel : ℕ} {header : MessageHdr}
    (hloop : receiveMessagesLoop read cfg ldr header.messageType header.flowControlFlags fuel header w r =
      some (status, w', r')) :
    ∃ pre, Took r pre r' ∧ ∀ rest,
      receiveMessages cfg ldr header w (pre ++ rest) = (status, w', rest) := by
  obtain ⟨pre, htook, hpre⟩ := receiveMessagesLoop_refines h hloop
  refine ⟨pre, htook, fun rest => ?_⟩
  let enough := max fuel ((pre ++ rest).length+1)
  have hlength : (pre ++ rest).length < enough := Nat.lt_of_succ_le (Nat.le_max_right _ _)
  rw [receiveMessages, receiveMessagesLoop_fuel cfg ldr _ _ (Nat.lt_succ_self _) hlength]
  exact hpre rest enough (Nat.le_max_left _ _)

end

/-- A call of `protocol_listen` does what it does on the list that the device went through. -/
theorem protocolListen_refines (h : Refines read Took) {cfg : Config} {W : Type}
    {loaderCallback : W → MessageType → Option (MsgLoader W)} {fuel : ℕ} {w : W}
    {outcome : Option (Except Status ProtocolEvent × W)}
    (hlisten : protocolListen read cfg loaderCallback fuel w r = some (outcome, r')) :
    ∃ pre, Took r pre r' ∧ ∀ rest, KenningRuntime.protocolListen cfg loaderCallback w (pre ++ rest) =
      outcome.map fun o => ⟨o.1, o.2, rest⟩ := by
  rw [protocolListen] at hlisten
  split at hlisten
  · cases hlisten
  · next status r₁ hheader =>
    cases hlisten
    obtain ⟨pre, htook, hpre⟩ := receiveMessageHeader_refines h hheader
    refine ⟨pre, htook, fun rest => ?_⟩
    simp only [KenningRuntime.protocolListen, hpre]
    rfl
  next header r₁ hheader =>
  obtain ⟨pre, htook, hpre⟩ := receiveMessageHeader_refines h hheader
  -- A header that is refused, and its payload with it.
  have hrefused {outcome' : Except Status ProtocolEvent × W}
      (hskip : (protocolSkipData read header.payloadSize.toNat r₁).map (fun r => (some outcome', r)) =
        some (outcome, r')) :
      outcome = some outcome' ∧ ∃ pre', Took r (pre ++ pre') r' ∧
        ∀ rest, KenningRuntime.protocolSkipData header.payloadSize.toNat (pre' ++ rest) = rest := by
    obtain ⟨r₂, hskip, heq⟩ := Option.map_eq_some_iff.mp hskip
    cases heq
    obtain ⟨pre', htook', hpre'⟩ := protocolSkipData_refines h hskip
    exact ⟨rfl, pre', h.trans htook htook', hpre'⟩
  split at hlisten
  · next hflow =>
    obtain ⟨rfl, pre', htook', hpre'⟩ := hrefused hlisten
    refine ⟨pre ++ pre', htook', fun rest => ?_⟩
    rw [List.append_assoc]
    simp only [KenningRuntime.protocolListen, hpre, if_pos hflow, hpre']
    rfl
  next hflow =>
  split at hlisten
  · next hfirst =>
    obtain ⟨rfl, pre', htook', hpre'⟩ := hrefused hlisten
    refine ⟨pre ++ pre', htook', fun rest => ?_⟩
    rw [List.append_assoc]
    simp only [KenningRuntime.protocolListen, hpre, if_neg hflow, if_pos hfirst, hpre']
    rfl
  next hfirst =>
  split at hlisten
  · next htype =>
    obtain ⟨rfl, pre', htook', hpre'⟩ := hrefused hlisten
    refine ⟨pre ++ pre', htook', fun rest => ?_⟩
    rw [List.append_assoc]
    simp only [KenningRuntime.protocolListen, hpre, if_neg hflow, if_neg hfirst, htype, hpre']
    rfl
  next messageType htype =>
  simp only at hlisten
  by_cases hp : header.flags.hasPayload = true
  swap
  · rw [if_neg hp] at hlisten
    cases hlisten
    refine ⟨pre, htook, fun rest => ?_⟩
    simp only [KenningRuntime.protocolListen, hpre, if_neg hflow, if_neg hfirst, htype, if_neg hp]
    rfl
  rw [if_pos hp] at hlisten
  cases hldr : loaderCallback w messageType with
  | none =>
    rw [hldr] at hlisten
    cases hlisten
    refine ⟨pre, htook, fun rest => ?_⟩
    simp only [KenningRuntime.protocolListen, hpre, if_neg hflow, if_neg hfirst, htype, if_pos hp, hldr]
    rfl
  | some ldr =>
    rw [hldr] at hlisten
    simp only at hlisten
    by_cases hreset : (ldr.reset w).1 ≠ statusOk
    · rw [if_pos hreset] at hlisten
      obtain ⟨rfl, pre', htook', hpre'⟩ := hrefused hlisten
      refine ⟨pre ++ pre', htook', fun rest => ?_⟩
      rw [List.append_assoc]
      simp only [KenningRuntime.protocolListen, hpre, if_neg hflow, if_neg hfirst, htype, if_pos hp,
        hldr, if_pos hreset, hpre']
      rfl
    rw [if_neg hreset] at hlisten
    split at hlisten
    · cases hlisten
    next status w₁ r₂ hmessages =>
    obtain ⟨pre', htook', hpre'⟩ := receiveMessages_refines h hmessages
    split at hlisten
    · next hs =>
      cases hlisten
      refine ⟨pre ++ pre', h.trans htook htook', fun rest => ?_⟩
      rw [List.append_assoc]
      simp only [KenningRuntime.protocolListen, hpre, if_neg hflow, if_neg hfirst, htype, if_pos hp,
        hldr, if_neg hreset, hpre', if_pos hs]
      rfl
    · next hs =>
      cases hlisten
      refine ⟨pre ++ pre', h.trans htook htook', fun rest => ?_⟩
      rw [List.append_assoc]
      simp only [KenningRuntime.protocolListen, hpre, if_neg hflow, if_neg hfirst, htype, if_pos hp,
        hldr, if_neg hreset, hpre', if_neg hs]
      rfl

section
variable {cfg : Config} {S : Type} {B : Build S} {fuel : ℕ}

theorem mainRound_refines (h : Refines read Took) {station station' : Station cfg S R}
    {checksum : ℕ → BitVec 8} (hround : mainRound read B fuel station checksum = some station') :
    ∃ pre, Took station.device pre station'.device ∧ ∀ rest,
      KenningRuntime.mainRound B ⟨station.server, pre ++ rest, station.tx⟩ checksum =
        some ⟨station'.server, rest, station'.tx⟩ := by
  rw [mainRound] at hround
  split at hround
  · cases hround
  · cases hround
  · next status server r hlisten =>
    cases hround
    obtain ⟨pre, htook, hpre⟩ := protocolListen_refines h hlisten
    refine ⟨pre, htook, fun rest => ?_⟩
    rw [KenningRuntime.mainRound, waitForProtocolEvent, hpre]
    rfl
  · next event server r hlisten =>
    obtain ⟨pre, htook, hpre⟩ := protocolListen_refines h hlisten
    split at hround
    · cases hround
    next handled hhandle =>
    cases hround
    refine ⟨pre, htook, fun rest => ?_⟩
    rw [KenningRuntime.mainRound, waitForProtocolEvent, hpre]
    simp only [Option.map_some, hhandle]

theorem run_refines (h : Refines read Took) {station station' : Station cfg S R}
    {checksums : List (ℕ → BitVec 8)}
    (hreaches : Reaches (mainRound read B fuel) station checksums station') :
    ∃ pre, Took station.device pre station'.device ∧ ∀ rest,
      Reaches (KenningRuntime.mainRound B) ⟨station.server, pre ++ rest, station.tx⟩ checksums
        ⟨station'.server, rest, station'.tx⟩ := by
  induction hreaches with
  | refl station => exact ⟨[], h.refl _, fun rest => .refl _⟩
  | next hround _ ih =>
    obtain ⟨pre, htook, hpre⟩ := mainRound_refines h hround
    obtain ⟨pre', htook', hpre'⟩ := ih
    refine ⟨pre ++ pre', h.trans htook htook', fun rest => ?_⟩
    rw [List.append_assoc]
    exact .next (hpre (pre' ++ rest)) (hpre' rest)

end

end

end Reader

/-! ### The UART -/

namespace Uart

/-- The bytes that a read stored. -/
def ReadState.bytes (s : ReadState) : List UInt8 :=
  match s.data with
  | none => []
  | some data => (List.range s.dataRead).map data

section
variable {polls : ℕ → Poll} {clock : ℕ → ℤ} {dataLength : ℕ} {data : Option (ℕ → UInt8)}
  {s t : ReadState} {status : Status}

theorem length_received_le (polls : ℕ → Poll) (k : ℕ) : (received polls k).length ≤ k := by
  have hle := List.length_filterMap_le (fun j => (polls j).received) (List.range k)
  rwa [List.length_range] at hle

theorem map_stored (bytes : List UInt8) (memory : ℕ → UInt8) :
    (List.range bytes.length).map (stored bytes memory) = bytes := by
  apply List.ext_getElem
  · rw [List.length_map, List.length_range]
  · intro i hi hi'
    rw [List.getElem_map, List.getElem_range, stored, List.getElem?_eq_getElem hi', Option.getD_some]

theorem Returned.bytes_eq {memory : ℕ → UInt8}
    (h : Returned polls clock dataLength (some memory) status t) :
    t.bytes = received polls t.polled := by
  have hdata : t.data = some (stored (received polls t.polled) memory) := h.progress.data_eq
  rw [ReadState.bytes, hdata, h.progress.read]
  exact map_stored _ memory

/-- A read fails at a poll that brings nothing, which is late or reports an error. -/
structure FailedAt (polls : ℕ → Poll) (clock : ℕ → ℤ) (status : Status) (j : ℕ) : Prop where
  silent : (polls j).rxStatus ≠ 0
  since : ∃ l ≤ j, (l = 0 ∨ (polls (l-1)).rxStatus = 0) ∧
    (∀ i, l ≤ i → i < j → (polls i).rxStatus ≠ 0) ∧
    failedPoll (polls j).rxStatus (clock (j+1)-clock l) = some status

theorem readLoop_failed {fuel : ℕ} (h : Progress polls clock data s)
    (ht : readLoop polls clock dataLength fuel s = some (status, t)) (hs : status ≠ statusOk) :
    ∃ j, t.polled = j+1 ∧ FailedAt polls clock status j := by
  induction fuel generalizing s with
  | zero => cases ht
  | succ fuel ih =>
    rw [readLoop] at ht
    split at ht
    swap
    · cases ht
      exact absurd rfl hs
    by_cases hpoll : (polls s.polled).rxStatus = 0
    · rw [readStep_byte hpoll] at ht
      exact ih (h.byte hpoll) ht
    rw [readStep_silent hpoll] at ht
    cases hfailed : failedPoll (polls s.polled).rxStatus (clock (s.polled+1)-s.startTimer) with
    | none =>
      rw [hfailed] at ht
      exact ih (h.silent hpoll) ht
    | some status' =>
      rw [hfailed] at ht
      cases ht
      obtain ⟨l, hl⟩ := h.started
      rw [hl.timer] at hfailed
      exact ⟨s.polled, rfl, hpoll, l, hl.le, hl.byte, hl.silent, hfailed⟩

theorem protocolReadData_failed {fuel : ℕ}
    (ht : protocolReadData polls clock dataLength true data fuel = some (status, t))
    (hs : status ≠ statusOk) : ∃ j, t.polled = j+1 ∧ FailedAt polls clock status j := by
  rw [protocolReadData, if_neg (by decide)] at ht
  exact readLoop_failed start_progress ht hs

end

end Uart

/-- What the UART brings and what the clock shows: the polls, the time after each of them, and the time at
which a read starts, by its number and the number of polls before it. The clock does not go back. -/
structure UartTrace where
  polls : ℕ → Uart.Poll
  time : ℕ → ℤ
  start : ℕ → ℕ → ℤ
  start_le : ∀ i k, start i k ≤ time k
  le_start : ∀ i k, time k ≤ start i (k+1)

/-- How often the UART was polled, and how many reads there were. -/
structure UartPosition where
  polled : ℕ
  reads : ℕ

namespace UartTrace

variable (trace : UartTrace)

/-- `k_uptime_get` from a position on. -/
def clock (p : UartPosition) : ℕ → ℤ
  | 0 => trace.start p.reads p.polled
  | q+1 => trace.time (p.polled+q)

/-- `protocol_read_data` at a position; `none` if it does not return within so many checks of its loop as
`fuel` gives to the call. What was in the memory makes no difference. -/
def read (memory : ℕ → UInt8) (fuel : ℕ → UartPosition → ℕ) : Reader UartPosition := fun n p =>
  match Uart.protocolReadData (fun j => trace.polls (p.polled+j)) (trace.clock p) n true (some memory)
    (fuel n p) with
  | none => none
  | some (status, s) => some (status, s.bytes, ⟨p.polled+s.polled, p.reads+1⟩)

/-- All bytes up to a position. -/
def received (p : UartPosition) : List UInt8 := Uart.received trace.polls p.polled

/-- The list that the UART went through: it has the bytes that were received, each item took a poll, and
the failures are where `P` holds. -/
structure Took (P : List UInt8 → Prop) (p : UartPosition) (pre : Rx) (p' : UartPosition) : Prop where
  polled : p.polled+pre.length ≤ p'.polled
  received : trace.received p' = trace.received p ++ delivered pre
  fails : FailsAt P (trace.received p) pre

/-- Only where `P` holds of the bytes so far may the UART report an error, or let more than 500 ms pass. -/
structure Paced (P : List UInt8 → Prop) : Prop where
  start : P []
  error : ∀ j, ¬ P (Uart.received trace.polls j) →
    (trace.polls j).rxStatus ≠ -Uart.enosys ∧ (trace.polls j).rxStatus ≠ -Uart.ebusy
  inTime : ∀ i j, i < j → (trace.polls i).rxStatus = 0 →
    (∀ k, i < k → k ≤ j → (trace.polls k).rxStatus ≠ 0) → ¬ P (Uart.received trace.polls j) →
      trace.time j-trace.time i ≤ Uart.uartTimeout

variable {trace} {P : List UInt8 → Prop}

theorem time_mono : Monotone trace.time :=
  monotone_nat_of_le_succ fun k => (trace.le_start 0 k).trans (trace.start_le 0 (k+1))

theorem exists_last_byte {polls : ℕ → Uart.Poll} {k : ℕ} (h : Uart.received polls k ≠ []) :
    ∃ i < k, (polls i).rxStatus = 0 ∧ ∀ j, i < j → j < k → (polls j).rxStatus ≠ 0 := by
  induction k with
  | zero => exact absurd rfl h
  | succ k ih =>
    by_cases hpoll : (polls k).rxStatus = 0
    · exact ⟨k, Nat.lt_succ_self k, hpoll, fun j hj hj' => absurd hj' (by omega)⟩
    · rw [Uart.received_of_ne_zero hpoll] at h
      obtain ⟨i, hi, hbyte, hsilent⟩ := ih h
      refine ⟨i, hi.trans (Nat.lt_succ_self k), hbyte, fun j hj hj' => ?_⟩
      rcases Nat.lt_succ_iff_lt_or_eq.mp hj' with hlt | rfl
      · exact hsilent j hj hlt
      · exact hpoll

/-- A read does not fail where the UART is paced. -/
theorem Paced.failedAt (h : trace.Paced P) {p : UartPosition} {status : Status} {j : ℕ}
    (hfailed : Uart.FailedAt (fun i => trace.polls (p.polled+i)) (trace.clock p) status j) :
    P (Uart.received trace.polls (p.polled+j)) := by
  by_contra hP
  obtain ⟨hnosys, hbusy⟩ := h.error _ hP
  obtain ⟨l, hl, hstart, hsilent, hstatus⟩ := hfailed.since
  -- The timer was started at a byte, or by this read and not before the last byte.
  have htime : ∃ i < p.polled+j, (trace.polls i).rxStatus = 0 ∧
      (∀ k, i < k → k ≤ p.polled+j → (trace.polls k).rxStatus ≠ 0) ∧
        trace.time i ≤ trace.clock p l := by
    have hlast (k : ℕ) (hk : p.polled+l ≤ k) (hkj : k ≤ p.polled+j) :
        (trace.polls k).rxStatus ≠ 0 := by
      obtain ⟨i, rfl⟩ := Nat.exists_eq_add_of_le (Nat.le_trans (Nat.le_add_right _ l) hk)
      rcases Nat.lt_or_ge i j with hij | hij
      · exact hsilent i (by omega) hij
      · obtain rfl : i = j := by omega
        exact hfailed.silent
    rcases Nat.eq_zero_or_pos l with rfl | hpos
    · have hne : Uart.received trace.polls (p.polled+j) ≠ [] := by
        intro hnil
        rw [hnil] at hP
        exact hP h.start
      obtain ⟨i, hi, hbyte, hquiet⟩ := exists_last_byte hne
      have hip : i < p.polled := by
        by_contra hge
        exact hlast i (by omega) (by omega) hbyte
      refine ⟨i, hi, hbyte, ?_, ?_⟩
      · intro k hk hkj
        rcases Nat.lt_or_ge k (p.polled+j) with hlt | hge
        · exact hquiet k hk hlt
        · exact hlast k (by omega) hkj
      · obtain ⟨k, hk⟩ := Nat.exists_eq_add_of_lt hip
        rw [clock, hk]
        exact (time_mono (Nat.le_add_right i k)).trans (trace.le_start p.reads (i+k))
    · obtain ⟨m, rfl⟩ := Nat.exists_eq_succ_of_ne_zero hpos.ne'
      have hbyte : (trace.polls (p.polled+m)).rxStatus = 0 := by
        rcases hstart with hzero | hbyte
        · omega
        · exact hbyte
      exact ⟨p.polled+m, by omega, hbyte, fun k hk hkj => hlast k (by omega) hkj, le_rfl⟩
  obtain ⟨i, hi, hbyte, hquiet, hle⟩ := htime
  have hlate := h.inTime i (p.polled+j) hi hbyte hquiet hP
  have hnow : trace.clock p (j+1) = trace.time (p.polled+j) := rfl
  have hnot : ¬ trace.clock p (j+1)-trace.clock p l > Uart.uartTimeout := by
    rw [hnow]
    omega
  rw [Uart.failedPoll, if_neg hnot, if_neg hnosys, if_neg hbusy] at hstatus
  cases hstatus

theorem Took.refl (p : UartPosition) : trace.Took P p [] p :=
  ⟨le_rfl, (List.append_nil _).symm, .nil _⟩

theorem Took.trans {p p' p'' : UartPosition} {pre pre' : Rx} (h : trace.Took P p pre p')
    (h' : trace.Took P p' pre' p'') : trace.Took P p (pre ++ pre') p'' := by
  refine ⟨?_, ?_, ?_⟩
  · have hle := h.polled
    have hle' := h'.polled
    rw [List.length_append]
    omega
  · rw [h'.received, h.received, delivered_append, List.append_assoc]
  · have hfails := h'.fails
    rw [h.received] at hfails
    exact h.fails.append hfails

/-- A read of the UART is a read of the list that it goes through. -/
theorem read_refines (h : trace.Paced P) (memory : ℕ → UInt8) (fuel : ℕ → UartPosition → ℕ) :
    Reader.Refines (trace.read memory fuel) (trace.Took P) := by
  refine ⟨Took.refl, Took.trans, ?_⟩
  intro n p p' status data hread
  rw [read] at hread
  split at hread
  · cases hread
  next status' s hs =>
  cases hread
  have hreturned := Uart.protocolReadData_returned hs
  have hadd := Uart.received_add trace.polls p.polled s.polled
  have hbytes := hreturned.bytes_eq
  by_cases hst : status = statusOk
  · -- A read that succeeds took its bytes and no failure.
    refine ⟨bytes s.bytes, ⟨?_, ?_, failsAt_bytes _⟩, fun rest => ?_⟩
    · have hle := Uart.length_received_le (fun j => trace.polls (p.polled+j)) s.polled
      rw [length_bytes, hbytes]
      exact Nat.add_le_add_left hle p.polled
    · rw [delivered_bytes, hbytes]
      exact hadd
    · rw [hbytes]
      exact (hreturned.lowerLayer rest).1 hst
  · -- One that fails took the bytes so far, and then the failure at its last poll, which brought none.
    obtain ⟨j, hj, hfailed⟩ := Uart.protocolReadData_failed hs hst
    have hlast : Uart.received (fun j => trace.polls (p.polled+j)) (j+1) =
        Uart.received (fun j => trace.polls (p.polled+j)) j :=
      Uart.received_of_ne_zero hfailed.silent
    rw [hj] at hbytes hadd
    have hP : P (trace.received p ++ s.bytes) := by
      have hat := h.failedAt hfailed
      rw [Uart.received_add, ← hlast, ← hbytes] at hat
      exact hat
    refine ⟨bytes s.bytes ++ [.fault ⟨status, hst⟩], ⟨?_, ?_, ?_⟩, fun rest => ?_⟩
    · have hle := Uart.length_received_le (fun j => trace.polls (p.polled+j)) j
      rw [← hlast, ← hbytes] at hle
      rw [List.length_append, length_bytes, List.length_singleton, hj]
      exact Nat.add_le_add_left (Nat.succ_le_succ hle) p.polled
    · have hdelivered : delivered (bytes s.bytes ++ [.fault ⟨status, hst⟩] : Rx) = s.bytes := by
        rw [delivered_append, delivered_bytes]
        exact List.append_nil _
      rw [hdelivered, received, hj, hadd, ← hbytes]
      rfl
    · apply (failsAt_bytes _).append
      rw [delivered_bytes]
      exact .fault _ hP (.nil _)
    · have hread := (hreturned.lowerLayer rest).2 hst
      rw [hj, ← hbytes] at hread
      rw [List.append_assoc]
      exact hread

theorem paced_true : trace.Paced fun _ => True :=
  ⟨trivial, fun _ hnot => absurd trivial hnot, fun _ _ _ _ _ hnot => absurd trivial hnot⟩

/-- Whatever the UART brings, whenever the clock says, and whatever the runtime does: the rounds of the main
loop over the UART are the rounds on a list that has the bytes that were received, and no others, with
failures between them. -/
theorem mainRound_uart {cfg : Config} {S : Type} {B : Build S} (trace : UartTrace) (memory : ℕ → UInt8)
    (fuel : ℕ → UartPosition → ℕ) (fuel' : ℕ) {station station' : Reader.Station cfg S UartPosition}
    {checksums : List (ℕ → BitVec 8)}
    (h : Reaches (Reader.mainRound (trace.read memory fuel) B fuel') station checksums station') :
    ∃ rx, trace.received station'.device = trace.received station.device ++ delivered rx ∧
      ∀ rest, Reaches (mainRound B) ⟨station.server, rx ++ rest, station.tx⟩ checksums
        ⟨station'.server, rest, station'.tx⟩ := by
  obtain ⟨rx, htook, hrx⟩ := Reader.run_refines (read_refines paced_true memory fuel) h
  exact ⟨rx, htook.received, hrx⟩

/-- The UART brings nothing in the first polls, then these bytes one after the other, and nothing more.
Eight polls take `pace` ms. -/
def delayed (pace silence : ℕ) (wire : List UInt8) : UartTrace where
  polls j :=
    if j < silence then ⟨-1, 0⟩
    else
      match wire[j-silence]? with
      | none => ⟨-1, 0⟩
      | some b => ⟨0, b⟩
  time k := ((pace*(k+1)/8 : ℕ) : ℤ)
  start _ k := ((pace*k/8 : ℕ) : ℤ)
  start_le := by
    intro _ k
    exact_mod_cast Nat.div_le_div_right (Nat.mul_le_mul_left pace (Nat.le_succ k))
  le_start := fun _ _ => le_rfl

section
variable (pace silence : ℕ) (wire : List UInt8)

theorem delayed_poll (k : ℕ) : ((delayed pace silence wire).polls k).received =
    if k < silence then none else wire[k-silence]? := by
  by_cases hk : k < silence
  · simp [delayed, Uart.Poll.received, hk]
  · cases hget : wire[k-silence]? with
    | none => simp [delayed, Uart.Poll.received, hk, hget]
    | some b => simp [delayed, Uart.Poll.received, hk, hget]

theorem delayed_received (k : ℕ) :
    Uart.received (delayed pace silence wire).polls k = wire.take (k-silence) := by
  induction k with
  | zero =>
    rw [Nat.zero_sub, List.take_zero]
    rfl
  | succ k ih =>
    rw [Uart.received_succ, ih, delayed_poll]
    split
    · next hk =>
      rw [Nat.sub_eq_zero_of_le hk.le, Nat.sub_eq_zero_of_le hk]
      rfl
    · next hk => rw [Nat.succ_sub (not_lt.mp hk), List.take_add_one]

end

/-- A ping behind a silence that makes the first round fail. -/
theorem mainRound_uart_ping :
    ∃ (station' : Reader.Station smallConfig (Emlearn 4 1 Unit) UartPosition) (rx : Rx),
      (delayed 16 260 (wires askConnect.messages)).received station'.device =
        (delayed 16 260 (wires askConnect.messages)).received ⟨0, 0⟩ ++ delivered rx ∧
      ∀ rest, Reaches (mainRound (emlearnBuild firstByte))
        ⟨bootServer smallConfig (Emlearn.boot 4 1 (by decide) ()), rx ++ rest, idleTx []⟩
        [fun _ => 0, fun _ => 0] ⟨station'.server, rest, station'.tx⟩ := by
  have hrun : (run (Reader.mainRound ((delayed 16 260 (wires askConnect.messages)).read (fun _ => 0)
        fun _ _ => 300)
      (emlearnBuild firstByte) 1)
      ⟨bootServer smallConfig (Emlearn.boot 4 1 (by decide) ()), ⟨0, 0⟩, idleTx []⟩
      [fun _ => 0, fun _ => 0]).any (fun _ => true) = true := by decide +kernel
  obtain ⟨station', hreaches, -⟩ := exists_reaches hrun
  obtain ⟨rx, hreceived, hrx⟩ := mainRound_uart _ _ _ _ hreaches
  exact ⟨station', rx, hreceived, hrx⟩

end UartTrace

end KenningRuntime
