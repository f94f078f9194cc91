import KenningRuntime.UartReception

/-! A session over the UART: whatever pauses a client makes between its requests, no byte of them is lost
and each of them is answered. -/
namespace KenningRuntime
open ByteSource Transition

namespace Reader

/-! ### Calls that return -/

section
variable {R : Type} {read : Reader R} {left : R → ℕ} {r r' : R}

/-- Every read returns, and at most `left r` bytes are still to come. -/
structure Ends (read : Reader R) (left : R → ℕ) : Prop where
  returns : ∀ n r, n < 2^32 → ∃ result, read n r = some result
  left_le : ∀ n r status data r', read n r = some (status, data, r') →
    left r'+(if status = statusOk then n else 0) ≤ left r

theorem protocolSkipData_returns (h : Ends read left) {n : ℕ} (hn : n < 2^32) (r : R) :
    ∃ r', protocolSkipData read n r = some r' := by
  obtain ⟨result, hread⟩ := h.returns n r hn
  exact ⟨result.2.2, by rw [protocolSkipData, hread, Option.map_some]⟩

theorem receiveMessageHeader_returns (h : Ends read left) (r : R) :
    ∃ result r', receiveMessageHeader read r = some (result, r') ∧
      ∀ header, result = .ok header → left r' < left r := by
  obtain ⟨⟨status, data, r'⟩, hread⟩ := h.returns messageHdrSize r (by decide)
  have hle := h.left_le _ _ _ _ _ hread
  simp only [receiveMessageHeader, hread]
  by_cases hs : checkProtocolStatus status ≠ statusOk
  · rw [if_pos hs]
    exact ⟨_, r', rfl, fun header hheader => by cases hheader⟩
  · rw [if_neg hs]
    rw [not_not, checkProtocolStatus_eq_ok] at hs
    rw [if_pos hs] at hle
    refine ⟨_, r', rfl, fun _ _ => ?_⟩
    have hpos : 0 < messageHdrSize := by decide
    omega

section
variable (cfg : Config) {W : Type} (ldr : MsgLoader W)

theorem receivePayloadLoop_returns (h : Ends read left) {fuel n : ℕ} (hn : n < 2^32) (status : Status)
    (w : W) (r : R) :
    ∃ status' w' r', receivePayloadLoop read cfg ldr fuel n status w r = some (status', w', r') ∧
      left r' ≤ left r := by
  induction fuel generalizing n status w r with
  | zero => exact ⟨status, w, r, rfl, le_rfl⟩
  | succ fuel ih =>
    rw [receivePayloadLoop]
    by_cases hzero : n = 0
    · rw [if_pos hzero]
      exact ⟨status, w, r, rfl, le_rfl⟩
    rw [if_neg hzero]
    have htoRead : (if cfg.messageRecvBufferSize > n then n else cfg.messageRecvBufferSize) < 2^32 := by
      split
      · exact hn
      · omega
    obtain ⟨⟨status₁, data, r₁⟩, hread⟩ := h.returns _ r htoRead
    have hle := h.left_le _ _ _ _ _ hread
    simp only [hread]
    by_cases hs : checkProtocolStatus status₁ ≠ statusOk
    · rw [if_pos hs]
      exact ⟨_, w, r₁, rfl, by omega⟩
    · rw [if_neg hs]
      obtain ⟨status', w', r', hloop, hle'⟩ := ih (n := n-_) (by omega) _ _ r₁
      exact ⟨status', w', r', hloop, by omega⟩

/-- Every round of the loop of `receive_messages` but the last takes a header. -/
theorem receiveMessagesLoop_returns (h : Ends read left) (messageType : BitVec 38)
    (flowControlFlags : BitVec 2) {fuel : ℕ} (header : MessageHdr) (w : W) (hfuel : left r < fuel) :
    ∃ result, receiveMessagesLoop read cfg ldr messageType flowControlFlags fuel header w r =
      some result := by
  -- Every message but the first has a header, which takes bytes, so the bytes that are left decrease.
  induction fuel generalizing header w r with
  | zero => exact absurd hfuel (Nat.not_lt_zero _)
  | succ fuel ih =>
    obtain ⟨status₁, w₁, r₁, hpayload, hle₁⟩ : ∃ status₁ w₁ r₁, (if header.flags.hasPayload
        then receiveMessagePayload read cfg ldr header.payloadSize.toNat w r
        else some (statusOk, w, r)) = some (status₁, w₁, r₁) ∧ left r₁ ≤ left r := by
      split
      · exact receivePayloadLoop_returns cfg ldr h header.payloadSize.isLt statusOk w r
      · exact ⟨_, _, _, rfl, le_rfl⟩
    rw [receiveMessagesLoop]
    simp only [hpayload]
    by_cases hs : status₁ ≠ statusOk
    · rw [if_pos hs]
      exact ⟨_, rfl⟩
    rw [if_neg hs]
    by_cases hlast : header.flags.last = true
    · rw [if_pos hlast]
      exact ⟨_, rfl⟩
    rw [if_neg hlast]
    obtain ⟨result, r₂, hheader, hlt⟩ := receiveMessageHeader_returns h r₁
    rw [hheader]
    cases result with
    | error status => exact ⟨_, rfl⟩
    | ok header₂ =>
      have hlt₂ := hlt header₂ rfl
      simp only
      cases hrefused : refusedHeader messageType flowControlFlags header₂ with
      | some status =>
        obtain ⟨r₃, hskip⟩ := protocolSkipData_returns h header₂.payloadSize.isLt r₂
        exact ⟨(status, w₁, r₃), by rw [hskip]; rfl⟩
      | none => exact ih header₂ w₁ (by omega)

theorem protocolListen_returns (h : Ends read left)
    (loaderCallback : W → MessageType → Option (MsgLoader W)) {fuel : ℕ} (w : W)
    (hfuel : left r < fuel) :
    ∃ result, protocolListen read cfg loaderCallback fuel w r = some result := by
  obtain ⟨result, r₁, hheader, hlt⟩ := receiveMessageHeader_returns h r
  rw [protocolListen, hheader]
  cases result with
  | error status => exact ⟨_, rfl⟩
  | ok header =>
    have hlt₁ := hlt header rfl
    obtain ⟨r₂, hskip⟩ := protocolSkipData_returns h header.payloadSize.isLt r₁
    simp only [hskip, Option.map_some]
    -- The branches of the source: bad flow control, no first message, a payload, none.
    split_ifs
    · exact ⟨_, rfl⟩
    · exact ⟨_, rfl⟩
    · split
      · exact ⟨_, rfl⟩
      · split
        · exact ⟨_, rfl⟩
        split_ifs
        · exact ⟨_, rfl⟩
        next ldr hldr hreset =>
        obtain ⟨⟨status, w', r'⟩, hloop⟩ := receiveMessagesLoop_returns cfg ldr h header.messageType
          header.flowControlFlags header (ldr.reset w).2 (hlt₁.trans hfuel)
        simp only [hloop]
        split_ifs
        · exact ⟨_, rfl⟩
        · exact ⟨_, rfl⟩
    · split
      · exact ⟨_, rfl⟩
      · exact ⟨_, rfl⟩

end

/-- A round over the device is a round on the list that `protocol_listen` went through. -/
theorem mainRound_eq {cfg : Config} {S : Type} {B : Build S} {fuel : ℕ} {server : Server cfg S} (tx : Tx)
    (checksum : ℕ → BitVec 8) {outcome : Option (Except Status ProtocolEvent × Server cfg S)}
    (hlisten : protocolListen read cfg (loaderPicker B) fuel server r = some (outcome, r')) {rx rest : Rx}
    (hlist : KenningRuntime.protocolListen cfg (loaderPicker B) server rx =
      outcome.map fun o => ⟨o.1, o.2, rest⟩) :
    mainRound read B fuel ⟨server, r, tx⟩ checksum =
      (KenningRuntime.mainRound B ⟨server, rx, tx⟩ checksum).map fun station =>
        ⟨station.server, r', station.tx⟩ := by
  rw [mainRound, KenningRuntime.mainRound, waitForProtocolEvent]
  simp only [hlisten, hlist]
  rcases outcome with _ | ⟨status | event, server'⟩
  · rfl
  · rfl
  · simp only [Option.map_some]
    cases handleProtocolEvent checksum B event server' tx with
    | none => rfl
    | some handled => rfl

end

end Reader

namespace UartTrace

section
variable (trace : UartTrace)

/-- The clock, which does not go back, passes every time. -/
def Grows : Prop := ∀ t, ∃ k, t < trace.time k

/-- The UART brings these bytes and no others, and has brought them after `polls` polls. -/
structure Brings (wire : List UInt8) (polls : ℕ) : Prop where
  within : ∀ k, Uart.received trace.polls k <+: wire
  all : Uart.received trace.polls polls = wire

variable {trace}

theorem clock_mono (p : UartPosition) : Monotone (trace.clock p) := by
  apply monotone_nat_of_le_succ
  intro q
  cases q with
  | zero => exact trace.start_le p.reads p.polled
  | succ q => exact time_mono (Nat.le_succ (p.polled+q))

theorem Grows.clock (h : trace.Grows) (p : UartPosition) (t : ℤ) : ∃ q, t < trace.clock p q := by
  obtain ⟨k, hk⟩ := h t
  exact ⟨k+1, hk.trans_le (time_mono (Nat.le_add_left k p.polled))⟩

/-- Every read ends. -/
theorem Grows.exists_fuel (h : trace.Grows) (memory : ℕ → UInt8) :
    ∃ enough : ℕ → UartPosition → ℕ, ∀ fuel, enough ≤ fuel →
      ∀ n p, ∃ result, trace.read memory fuel n p = some result := by
  have hends (n : ℕ) (p : UartPosition) :
      ∃ fuel, (Uart.readLoop (fun j => trace.polls (p.polled+j)) (trace.clock p) n fuel
        ⟨some memory, 0, trace.clock p 0, 0⟩).isSome = true :=
    Uart.exists_readLoop (clock_mono p) (h.clock p) _
  choose enough henough using hends
  refine ⟨enough, fun fuel hle n p => ?_⟩
  obtain ⟨⟨status, s⟩, hs⟩ := Option.isSome_iff_exists.mp (henough n p)
  have hmore := Uart.readLoop_mono (hle n p) hs
  rw [read, Uart.protocolReadData, if_neg (by decide), hmore]
  exact ⟨_, rfl⟩

/-- The bytes that are still to come. -/
def left (trace : UartTrace) (wire : List UInt8) (p : UartPosition) : ℕ :=
  wire.length-(trace.received p).length

theorem read_ends {wire : List UInt8} {polls : ℕ} (hbrings : trace.Brings wire polls)
    {memory : ℕ → UInt8} {fuel : ℕ → UartPosition → ℕ}
    (hfuel : ∀ n p, ∃ result, trace.read memory fuel n p = some result) :
    Reader.Ends (trace.read memory fuel) (trace.left wire) := by
  refine ⟨fun n p _ => hfuel n p, fun n p status data p' hread => ?_⟩
  rw [read] at hread
  split at hread
  · cases hread
  next status' s hs =>
  cases hread
  have hreturned := Uart.protocolReadData_returned hs
  have hadd := Uart.received_add trace.polls p.polled s.polled
  have hlength : (trace.received ⟨p.polled+s.polled, p.reads+1⟩).length =
      (trace.received p).length+
        (Uart.received (fun j => trace.polls (p.polled+j)) s.polled).length := by
    rw [received, hadd, List.length_append]
    rfl
  have hwithin := (hbrings.within (p.polled+s.polled)).length_le
  change (trace.received ⟨p.polled+s.polled, p.reads+1⟩).length ≤ wire.length at hwithin
  rw [left, left]
  split
  · next hst =>
    have hexactly := (hreturned.ok hst).1
    omega
  · omega

end

end UartTrace

/-! ### Sessions with pauses -/

/-- Between two of the requests, or before the first, or behind the last. -/
def BetweenAsks (asks : List Ask) (got : List UInt8) : Prop :=
  ∃ done rest, asks = done ++ rest ∧ got = wiresOf done

/-- In the middle of a request is not between two of them. -/
theorem not_betweenAsks {done rest : List Ask} {ask : Ask} {as cs : List UInt8}
    (hask : wires ask.messages = as ++ cs) (has : as ≠ []) (hcs : cs ≠ []) :
    ¬ BetweenAsks (done ++ ask :: rest) (wiresOf done ++ as) := by
  rintro ⟨done', rest', hasks, hgot⟩
  have hlength := congrArg List.length hgot
  have haskLength := congrArg List.length hask
  have hasPos := List.length_pos_of_ne_nil has
  have hcsPos := List.length_pos_of_ne_nil hcs
  rw [List.length_append] at hlength haskLength
  have hdone : done <+: done ++ ask :: rest := List.prefix_append _ _
  have hdone' : done' <+: done ++ ask :: rest := ⟨rest', hasks.symm⟩
  rcases List.prefix_or_prefix_of_prefix hdone' hdone with ⟨more, rfl⟩ | ⟨more, rfl⟩
  · rw [wiresOf_append, List.length_append] at hlength
    omega
  · -- The request is among those of `done'`, or there is none behind `done`.
    cases more with
    | nil =>
      rw [List.append_nil] at hlength
      omega
    | cons ask' more =>
      rw [List.append_assoc, List.append_cancel_left_eq, List.cons_append, List.cons.injEq] at hasks
      obtain ⟨rfl, -⟩ := hasks
      rw [wiresOf_append, wiresOf_cons, List.length_append, List.length_append] at hlength
      omega

/-- Without a byte, a round is over at once. -/
theorem protocolListen_fault (cfg : Config) {W : Type}
    (loaderCallback : W → MessageType → Option (MsgLoader W)) (w : W) (e : LowerError) (rx : Rx) :
    protocolListen cfg loaderCallback w (.fault e :: rx) =
      some ⟨.error (checkProtocolStatus e), w, rx⟩ := by
  have hread : protocolReadData messageHdrSize (.fault e :: rx) = (e.val, [], rx) := rfl
  have hne : checkProtocolStatus e ≠ statusOk := by
    rw [ne_eq, checkProtocolStatus_eq_ok]
    exact e.property
  simp only [protocolListen, receiveMessageHeader, hread, if_pos hne]

/-- What a call leaves on the list shows in its result. -/
theorem rest_of_listen {W : Type} {event : Except Status ProtocolEvent} {w : W} {rest rest' : Rx}
    {outcome : Option (Except Status ProtocolEvent × W)}
    (h : some ⟨event, w, rest⟩ = outcome.map fun o => (⟨o.1, o.2, rest'⟩ : ListenResult W)) :
    rest = rest' := by
  cases outcome with
  | none => cases h
  | some o => exact congrArg ListenResult.rx (Option.some.inj h)

section
variable {cfg : Config} {S : Type} {B : Build S} {M : Models} {E : Evaluates B.runtime M}

/-- From one station to the other the server received the requests `now` and answered them, in at least
that many polls. -/
structure AnswersAll (E : Evaluates B.runtime M) (trace : UartTrace) (session : Session)
    (now : List Ask) (polls : ℕ) (station station' : Reader.Station cfg S UartPosition) : Prop where
  serves : Serves E (session.after M now) station'.server
  received : trace.received station'.device = trace.received station.device ++ wiresOf now
  polled : station.device.polled+polls ≤ station'.device.polled
  replies : ∃ replies responses,
    station'.tx = idleTx (station.tx.sent ++ sessionWire cfg responses) ∧
      List.Forall₂ (Responds cfg) replies responses ∧ SameReplies replies (session.replies M now)

variable {session : Session} {trace : UartTrace} {done asks now now' : List Ask} {polls polls' : ℕ}
  {station station' station'' : Reader.Station cfg S UartPosition}

theorem AnswersAll.trans (h : AnswersAll E trace session now polls station station')
    (h' : AnswersAll E trace (session.after M now) now' polls' station' station'') :
    AnswersAll E trace session (now ++ now') (polls+polls') station station'' := by
  obtain ⟨replies, responses, htx, hresponds, hsame⟩ := h.replies
  obtain ⟨replies', responses', htx', hresponds', hsame'⟩ := h'.replies
  refine ⟨?_, ?_, ?_, replies ++ replies', responses ++ responses', ?_, ?_, ?_⟩
  · rw [Session.after_append]
    exact h'.serves
  · rw [h'.received, h.received, wiresOf_append, List.append_assoc]
  · have hle := h.polled
    have hle' := h'.polled
    omega
  · rw [htx', htx, sessionWire_append, ← List.append_assoc]
    rfl
  · exact List.rel_append hresponds hresponds'
  · rw [SameReplies, List.map_append, hsame, hsame', Session.replies_append, List.map_append]

/-- One round over the UART. The list that the UART goes through starts with a failure, and then the
round waits in vain; or with a byte, and then it is the next request. -/
theorem mainRound_answers {read : Reader UartPosition} {fuel : ℕ}
    (hrefines : Reader.Refines read (trace.Took (BetweenAsks (done ++ asks))))
    {wire : List UInt8} (hends : Reader.Ends read (trace.left wire)) (hfuel : wire.length < fuel)
    (hwithin : ∀ k, Uart.received trace.polls k <+: wiresOf (done ++ asks))
    (hserves : Serves E session station.server) (hadmits : session.AdmitsAll M cfg asks)
    (hreceived : trace.received station.device = wiresOf done) {sent : List UInt8}
    (htx : station.tx = idleTx sent) (checksum : ℕ → BitVec 8) :
    ∃ now rest station', asks = now ++ rest ∧
      Reader.mainRound read B fuel station checksum = some station' ∧
      AnswersAll E trace session now 1 station station' := by
  obtain ⟨server, p, tx⟩ := station
  obtain rfl : tx = idleTx sent := htx
  have hleft : trace.left wire p < fuel := (Nat.sub_le _ _).trans_lt hfuel
  obtain ⟨⟨outcome, p'⟩, hlisten⟩ := Reader.protocolListen_returns cfg hends (loaderPicker B) server hleft
  obtain ⟨pre, htook, hpre⟩ := Reader.protocolListen_refines hrefines hlisten
  have hround (rx rest : Rx) (hlist : protocolListen cfg (loaderPicker B) server rx =
      outcome.map fun o => ⟨o.1, o.2, rest⟩) :=
    Reader.mainRound_eq (idleTx sent) checksum hlisten hlist
  have hgot : trace.received p' = wiresOf done ++ delivered pre := by
    rw [htook.received]
    exact congrArg (· ++ delivered pre) hreceived
  have hdelivered : delivered pre <+: wiresOf asks := by
    have hwhole := hwithin p'.polled
    change trace.received p' <+: _ at hwhole
    rwa [hgot, wiresOf_append, List.prefix_append_right_inj] at hwhole
  have hpolled := htook.polled
  have hfails : FailsAt (BetweenAsks (done ++ asks)) (wiresOf done) pre := by
    have hat := htook.fails
    change FailsAt _ (trace.received p) pre at hat
    have hreceived' : trace.received p = wiresOf done := hreceived
    rwa [hreceived'] at hat
  cases hfails with
  | nil =>
    -- A call that takes nothing off the line takes no failure off it either.
    have hfault := hpre [.fault ⟨protocolStatusTimeout, protocolTimeout_ne⟩]
    rw [List.nil_append, protocolListen_fault] at hfault
    exact absurd (rest_of_listen hfault) (List.cons_ne_nil _ _).symm
  | @fault _ e pre' _ hfails' =>
    have hfault := hpre []
    rw [List.append_nil, protocolListen_fault] at hfault
    obtain rfl : pre' = [] := rest_of_listen hfault
    have hwaits : Reader.mainRound read B fuel ⟨server, p, idleTx sent⟩ checksum =
        some ⟨server, p', idleTx sent⟩ := by
      rw [hround [.fault e] [], mainRound, waitForProtocolEvent, protocolListen_fault]
      · rfl
      · rw [protocolListen_fault]
        exact hfault
    refine ⟨[], asks, _, rfl, hwaits, hserves, ?_, hpolled, [], [], ?_, .nil, rfl⟩
    · show trace.received p' = trace.received p ++ []
      rw [hgot, List.append_nil]
      exact (List.append_nil _).trans hreceived.symm
    · rw [sessionWire, List.flatMap_nil, List.append_nil]
      rfl
  | @byte _ b pre' hfails' =>
    rw [delivered_byte] at hdelivered
    cases asks with
    | nil => exact absurd (List.prefix_nil.mp hdelivered) (List.cons_ne_nil _ _)
    | cons ask rest =>
      obtain ⟨c, bs, hwires⟩ := List.exists_cons_of_ne_nil (wires_ask_ne_nil ask)
      rw [wiresOf_cons, hwires, List.cons_append, List.cons_prefix_cons] at hdelivered
      obtain ⟨rfl, hdelivered⟩ := hdelivered
      obtain ⟨m, ms, hmessages, hcarried⟩ := ask.exists_cons
      obtain ⟨event, received, answer, hall, htype, hasked, hcallback, hfits, hsuccess, hpayload,
        hserves'⟩ := answered hserves hadmits.1 hcarried
      rw [← hmessages] at hall
      have hinside : ∀ as cs, bs = as ++ cs → cs ≠ [] →
          ¬ BetweenAsks (done ++ ask :: rest) (wiresOf done ++ [b] ++ as) := by
        intro as cs hbs hcs
        rw [List.append_assoc]
        refine not_betweenAsks ?_ (List.cons_ne_nil b as) hcs
        rw [hwires, hbs]
        rfl
      rcases hfails'.piece hdelivered hinside with ⟨src, rfl⟩ | ⟨as, cs, rfl, hcs, rfl⟩
      · -- The list starts with the messages of the request, and the call takes nothing else.
        have hlist : (.byte b :: (bytes bs ++ src) : Rx) = bytes (wires ask.messages) ++ src := by
          rw [hwires]
          rfl
        have htaken := hpre []
        rw [List.append_nil, hlist, hall] at htaken
        obtain rfl : src = [] := rest_of_listen htaken
        obtain ⟨responses, hreply, hresponds⟩ := mainRound_reply (session.next M ask.request).2 hall
          htype hasked hcallback hfits hsuccess hpayload checksum [] sent
        have hanswers : Reader.mainRound read B fuel ⟨server, p, idleTx sent⟩ checksum =
            some ⟨answer.server, p', idleTx (sent ++ sessionWire cfg responses)⟩ := by
          rw [hround (bytes (wires ask.messages) ++ []) [], hreply, Option.map_some]
          rw [hall]
          exact htaken
        refine ⟨[ask], rest, _, rfl, hanswers, hserves', ?_, ?_, _, responses, rfl, hresponds, ?_⟩
        · show trace.received p' = trace.received p ++ wiresOf [ask]
          have hreceived' : trace.received p = wiresOf done := hreceived
          rw [hgot, hreceived', hlist, List.append_nil, delivered_bytes, wiresOf_cons]
          exact congrArg _ (List.append_nil _).symm
        · show p.polled+1 ≤ p'.polled
          rw [List.length_cons] at hpolled
          omega
        · rw [SameReplies, Session.replies, Session.replies, List.append_nil]
          split
          · rfl
          · rfl
      · -- A call that is given the rest of the request takes that too.
        have hlist : (.byte b :: bytes as ++ bytes cs : Rx) = bytes (wires ask.messages) ++ [] := by
          rw [hwires, List.append_nil]
          exact (bytes_append (b :: as) cs).symm
        have htaken := hpre (bytes cs)
        rw [hlist, hall] at htaken
        have hnil : [] = (bytes cs : Rx) := rest_of_listen htaken
        have hlength := congrArg List.length hnil
        rw [length_bytes] at hlength
        exact absurd (List.eq_nil_of_length_eq_zero hlength.symm) hcs

/-- Round after round. The induction is on the rounds; the requests that are answered move from those to
come to those that are done. -/
theorem reaches_answers (station : Reader.Station cfg S UartPosition) {all : List Ask} {read : Reader UartPosition} {fuel : ℕ}
    (hrefines : Reader.Refines read (trace.Took (BetweenAsks all))) {wire : List UInt8}
    (hends : Reader.Ends read (trace.left wire)) (hfuel : wire.length < fuel)
    (hwithin : ∀ k, Uart.received trace.polls k <+: wiresOf all) (hall : all = done ++ asks)
    (hserves : Serves E session station.server) (hadmits : session.AdmitsAll M cfg asks)
    (hreceived : trace.received station.device = wiresOf done) {sent : List UInt8}
    (htx : station.tx = idleTx sent) (checksums : List (ℕ → BitVec 8)) :
    ∃ now rest station', asks = now ++ rest ∧
      Reaches (Reader.mainRound read B fuel) station checksums station' ∧
      AnswersAll E trace session now checksums.length station station' := by
  -- The induction is on the rounds; each of them answers some of the requests that are left.
  induction checksums generalizing session done asks station sent with
  | nil =>
    refine ⟨[], asks, station, rfl, .refl _, hserves, (List.append_nil _).symm, le_rfl, [], [], ?_, .nil,
      rfl⟩
    rw [sessionWire, List.flatMap_nil, List.append_nil, htx]
    rfl
  | cons checksum checksums ih =>
    subst hall
    obtain ⟨now, rest, station₁, rfl, hround, hanswers⟩ :=
      mainRound_answers hrefines hends hfuel hwithin hserves hadmits hreceived htx checksum
    have hreceived₁ : trace.received station₁.device = wiresOf (done ++ now) := by
      rw [hanswers.received, hreceived, wiresOf_append]
    obtain ⟨_, _, htx₁, -, -⟩ := hanswers.replies
    obtain ⟨now', rest', station', rfl, hreaches, hanswers'⟩ := ih station₁ (List.append_assoc _ _ _).symm
      hanswers.serves (Session.admitsAll_append hadmits) hreceived₁ htx₁
    refine ⟨now ++ now', rest', station', (List.append_assoc _ _ _).symm, .next hround hreaches, ?_⟩
    have htrans := hanswers.trans hanswers'
    rwa [Nat.add_comm 1] at htrans

/-- A session over the UART, with any clock that does not go back and that passes every time. The client
pauses where it likes between its requests, but within a request no more than 500 ms. However many rounds
the main loop has taken, every byte that was received belongs to a request that was answered, and the
client reads the replies to these; and if there were as many rounds as polls that it takes the UART to
bring all bytes, the whole session was answered. -/
theorem uart_session {server : Server cfg S} (hserves : Serves E session server)
    (hadmits : session.AdmitsAll M cfg asks) (hpaced : trace.Paced (BetweenAsks asks))
    (hgrows : trace.Grows) (hbrings : trace.Brings (wiresOf asks) polls) (memory : ℕ → UInt8)
    {fuel' : ℕ} (hfuel' : (wiresOf asks).length < fuel')
    {W : Type} {C : MessageType → ℕ} {client : ∀ t, Lens W (BufLoader (C t))}
    {loaderCallback : W → MessageType → Option (MsgLoader W)}
    (hclient : ∀ w t, loaderCallback w t = some ((msgLoaderBuf (C t)).lift (client t)) ∧
      cfg.responsePayloadSize ≤ C t) (cfg' : Config) :
    ∃ enough : ℕ → UartPosition → ℕ, ∀ fuel, enough ≤ fuel → ∀ checksums : List (ℕ → BitVec 8),
      ∃ now rest server' p sent replies, asks = now ++ rest ∧
        Reaches (Reader.mainRound (trace.read memory fuel) B fuel') ⟨server, ⟨0, 0⟩, idleTx []⟩ checksums
          ⟨server', p, idleTx sent⟩ ∧
        Serves E (session.after M now) server' ∧ trace.received p = wiresOf now ∧
        (polls ≤ checksums.length → rest = []) ∧ SameReplies replies (session.replies M now) ∧
        ReadsReplies cfg' client loaderCallback sent replies := by
  obtain ⟨enough, henough⟩ := hgrows.exists_fuel memory
  refine ⟨enough, fun fuel hfuel checksums => ?_⟩
  obtain ⟨now, rest, ⟨server', p, tx⟩, rfl, hreaches, hanswers⟩ :=
    reaches_answers ⟨server, ⟨0, 0⟩, idleTx []⟩ (UartTrace.read_refines hpaced memory fuel)
      (UartTrace.read_ends hbrings (henough fuel hfuel)) hfuel' hbrings.within (List.nil_append _).symm
      hserves hadmits rfl rfl checksums
  obtain ⟨replies, responses, htx, hresponds, hsame⟩ := hanswers.replies
  have hreceived : trace.received p = wiresOf now := hanswers.received
  refine ⟨now, rest, server', p, sessionWire cfg responses, replies, rfl, ?_, hanswers.serves, hreceived,
    ?_, hsame, responds_reads client hclient cfg' hresponds⟩
  · obtain rfl : tx = idleTx (sessionWire cfg responses) := htx
    exact hreaches
  · intro hrounds
    -- All bytes have come, so no request can be left.
    have hpolled : polls ≤ p.polled := by
      have hle := hanswers.polled
      simp only [Nat.zero_add] at hle
      exact hrounds.trans hle
    obtain ⟨more, hmore⟩ := Nat.exists_eq_add_of_le hpolled
    have hlength := congrArg List.length hreceived
    rw [UartTrace.received, hmore, Uart.received_add, hbrings.all, List.length_append, wiresOf_append,
      List.length_append] at hlength
    cases rest with
    | nil => rfl
    | cons ask rest =>
      have hpos := List.length_pos_of_ne_nil (wires_ask_ne_nil ask)
      rw [wiresOf_cons, List.length_append] at hlength
      omega

end

/-! A client that is silent at first, and then sends a session in one go. -/

namespace UartTrace

variable (pace silence : ℕ) (wire : List UInt8)

theorem delayed_brings : (delayed pace silence wire).Brings wire (silence+wire.length) where
  within k := by
    rw [delayed_received]
    exact List.take_prefix _ _
  all := by
    rw [delayed_received, Nat.add_sub_cancel_left, List.take_length]

theorem delayed_grows (hpace : 0 < pace) : (delayed pace silence wire).Grows := by
  intro t
  refine ⟨8*t.toNat+8, ?_⟩
  -- So many polls take more than `t` ms, at one millisecond for eight of them.
  have hle : 1*(8*t.toNat+8+1) ≤ pace*(8*t.toNat+8+1) := Nat.mul_le_mul_right _ hpace
  have hdiv := Nat.div_le_div_right (c := 8) hle
  have htime : (delayed pace silence wire).time (8*t.toNat+8) =
      ((pace*(8*t.toNat+8+1)/8 : ℕ) : ℤ) := rfl
  rw [htime]
  omega

theorem delayed_silent {k : ℕ} (h : ((delayed pace silence wire).polls k).rxStatus ≠ 0) :
    ((delayed pace silence wire).polls k).rxStatus = -1 ∧ (silence ≤ k → wire.length ≤ k-silence) := by
  simp only [delayed] at h ⊢
  split
  · next hk => exact ⟨rfl, fun hle => absurd hk (not_lt.mpr hle)⟩
  · next hk =>
    rw [if_neg hk] at h
    cases hget : wire[k-silence]? with
    | none => exact ⟨rfl, fun _ => List.getElem?_eq_none_iff.mp hget⟩
    | some b =>
      rw [hget] at h
      exact absurd rfl h

theorem delayed_paced (asks : List Ask) : (delayed pace silence (wiresOf asks)).Paced (BetweenAsks asks) where
  start := ⟨[], asks, rfl, rfl⟩
  error j _ := by
    by_cases hpoll : ((delayed pace silence (wiresOf asks)).polls j).rxStatus = 0
    · rw [hpoll]
      decide
    · rw [(delayed_silent pace silence _ hpoll).1]
      decide
  inTime i j hij hbyte hsilent hP := by
    have hi : silence ≤ i := by
      by_contra hlt
      simp only [delayed, if_pos (not_le.mp hlt)] at hbyte
      cases hbyte
    have hlast := (delayed_silent pace silence _ (hsilent (i+1) (Nat.lt_succ_self i) hij)).2
      (hi.trans (Nat.le_succ i))
    rw [delayed_received, List.take_of_length_le (by omega)] at hP
    exact absurd ⟨asks, [], (List.append_nil _).symm, rfl⟩ hP

end UartTrace

/-- The server over emlearn, and a client that starts after 1.2 seconds, with eight polls in a
millisecond. -/
theorem uart_session_delayed :
    ∃ enough : ℕ → UartPosition → ℕ, ∀ fuel, enough ≤ fuel → ∀ checksums : List (ℕ → BitVec 8),
      ∃ now rest server p sent replies, oneByteAsks = now ++ rest ∧
        Reaches (Reader.mainRound ((UartTrace.delayed 1 9600 (wiresOf oneByteAsks)).read (fun _ => 0) fuel)
            (emlearnBuild firstByte) ((wiresOf oneByteAsks).length+1))
          ⟨(initServer (emlearnBuild firstByte) statusOk
              (bootServer smallConfig (Emlearn.boot 4 1 (by decide) ()))).2, ⟨0, 0⟩, idleTx []⟩
          checksums ⟨server, p, idleTx sent⟩ ∧
        Serves (Emlearn.evaluates firstByte_computes (by decide) (by decide))
          ((⟨false, .initialized⟩ : Session).after (emlearnModels 1 1 (List.take 1)) now) server ∧
        (UartTrace.delayed 1 9600 (wiresOf oneByteAsks)).received p = wiresOf now ∧
        (9600+(wiresOf oneByteAsks).length ≤ checksums.length → rest = []) ∧
        SameReplies replies
          ((⟨false, .initialized⟩ : Session).replies (emlearnModels 1 1 (List.take 1)) now) ∧
        ReadsReplies narrowConfig (fun _ => Lens.whole (BufLoader 16)) (oneLoader 16) sent replies := by
  have hserves : Serves (Emlearn.evaluates firstByte_computes (by decide) (by decide))
      ⟨false, .initialized⟩ (initServer (emlearnBuild firstByte) statusOk
        (bootServer smallConfig (Emlearn.boot 4 1 (by decide) ()))).2 :=
    initServer_serves rfl rfl rfl
  have hclient : ∀ w t, oneLoader 16 w t = some ((msgLoaderBuf 16).lift (Lens.whole (BufLoader 16))) ∧
      smallConfig.responsePayloadSize ≤ 16 := fun _ _ => ⟨rfl, by decide⟩
  exact uart_session hserves oneByteAsks_admitted (UartTrace.delayed_paced 1 9600 oneByteAsks)
    (UartTrace.delayed_grows 1 9600 _ (by decide)) (UartTrace.delayed_brings 1 9600 _) (fun _ => 0)
    (Nat.lt_add_one _) hclient narrowConfig

end KenningRuntime
