import KenningRuntime.Reception

/-! Reading from the UART (protocols/uart.c), poll by poll. -/
namespace KenningRuntime
namespace Uart
open ByteSource

def protocolStatusUninit : Status := Module.protocol.statusUninit
def protocolStatusRecvErrorNosys : Status := Module.protocol.status 10
def protocolStatusRecvErrorBusy : Status := Module.protocol.status 11

def enosys : ℤ := 88
def ebusy : ℤ := 16

/-- `UART_TIMEOUT_S * 1000`, in milliseconds. -/
def uartTimeout : ℤ := 500

/-- What `uart_poll_in` returns, and what it stores. -/
structure Poll where
  rxStatus : ℤ
  c : UInt8
deriving DecidableEq, Repr

/-- The local variables of `protocol_read_data` and the memory from `data` on, if that is a pointer; and how
often `uart_poll_in` was called. -/
structure ReadState where
  data : Option (ℕ → UInt8)
  dataRead : ℕ
  startTimer : ℤ
  polled : ℕ

/-- The status with which the loop returns after a poll that brought no byte, if it does. -/
def failedPoll (rxStatus elapsed : ℤ) : Option Status :=
  if elapsed > uartTimeout then some protocolStatusTimeout
  else if rxStatus = -enosys then some protocolStatusRecvErrorNosys
  else if rxStatus = -ebusy then some protocolStatusRecvErrorBusy
  else none

section
variable (polls : ℕ → Poll) (clock : ℕ → ℤ) (dataLength : ℕ)

/-- The body of the loop: a status if it returns. `k_uptime_get` is called once at the start, and once for
each poll. -/
def readStep (s : ReadState) : Option Status × ReadState :=
  let poll := polls s.polled
  let now := clock (s.polled+1)
  if poll.rxStatus = 0 then
    (none, {s with
      polled := s.polled+1
      data := s.data.map fun data => Function.update data s.dataRead poll.c
      dataRead := s.dataRead+1
      startTimer := now })
  else (failedPoll poll.rxStatus (now-s.startTimer), {s with polled := s.polled+1})

/-- The loop of `protocol_read_data`; `none` if it has not returned after `fuel` checks of its condition. -/
def readLoop : ℕ → ReadState → Option (Status × ReadState)
  | 0, _ => none
  | fuel+1, s =>
    if s.dataRead < dataLength then
      match readStep polls clock s with
      | (some status, s) => some (status, s)
      | (none, s) => readLoop fuel s
    else some (statusOk, s)

def protocolReadData (initialized : Bool) (data : Option (ℕ → UInt8)) (fuel : ℕ) :
    Option (Status × ReadState) :=
  if ¬ initialized then some (protocolStatusUninit, ⟨data, 0, 0, 0⟩)
  else readLoop polls clock dataLength fuel ⟨data, 0, clock 0, 0⟩

end

/-! ### The bytes that were received -/

def Poll.received (poll : Poll) : Option UInt8 := if poll.rxStatus = 0 then some poll.c else none

/-- The bytes of the first `k` polls, as far as they were successful. -/
def received (polls : ℕ → Poll) (k : ℕ) : List UInt8 :=
  (List.range k).filterMap fun j => (polls j).received

/-- The memory with these bytes at its start. -/
def stored (bytes : List UInt8) (data : ℕ → UInt8) (i : ℕ) : UInt8 := bytes[i]?.getD (data i)

section
variable {polls : ℕ → Poll} {k : ℕ}

theorem received_succ : received polls (k+1) = received polls k ++ (polls k).received.toList := by
  rw [received, List.range_succ, List.filterMap_append, received]
  congr 1

theorem received_of_zero (h : (polls k).rxStatus = 0) :
    received polls (k+1) = received polls k ++ [(polls k).c] := by
  rw [received_succ, Poll.received, if_pos h, Option.toList_some]

theorem received_of_ne_zero (h : (polls k).rxStatus ≠ 0) :
    received polls (k+1) = received polls k := by
  rw [received_succ, Poll.received, if_neg h, Option.toList_none, List.append_nil]

theorem received_add (polls : ℕ → Poll) (k n : ℕ) :
    received polls (k+n) = received polls k ++ received (fun j => polls (k+j)) n := by
  induction n with
  | zero => exact (List.append_nil _).symm
  | succ n ih => rw [← Nat.add_assoc, received_succ, ih, received_succ, List.append_assoc]

theorem update_stored (bytes : List UInt8) (data : ℕ → UInt8) (c : UInt8) :
    Function.update (stored bytes data) bytes.length c = stored (bytes ++ [c]) data := by
  funext i
  by_cases hi : i = bytes.length
  · rw [hi, Function.update_self, stored, List.getElem?_concat_length, Option.getD_some]
  · rw [Function.update_of_ne hi, stored, stored]
    rcases Nat.lt_or_gt_of_ne hi with hlt | hgt
    · rw [List.getElem?_append_left hlt]
    · have hlen : (bytes ++ [c]).length ≤ i := by
        rw [List.length_append, List.length_singleton]
        omega
      rw [List.getElem?_eq_none hlen, List.getElem?_eq_none hgt.le]

end

/-! ### What the loop keeps -/

/-- The timer was started by query `l` of the clock: at the start, or right after a byte; and no byte has
come since. -/
structure Started (polls : ℕ → Poll) (clock : ℕ → ℤ) (s : ReadState) (l : ℕ) : Prop where
  le : l ≤ s.polled
  timer : s.startTimer = clock l
  byte : l = 0 ∨ (polls (l-1)).rxStatus = 0
  silent : ∀ j, l ≤ j → j < s.polled → (polls j).rxStatus ≠ 0

/-- Every byte that was received is stored, in order. -/
structure Progress (polls : ℕ → Poll) (clock : ℕ → ℤ) (data : Option (ℕ → UInt8)) (s : ReadState) :
    Prop where
  read : s.dataRead = (received polls s.polled).length
  data_eq : s.data = data.map (stored (received polls s.polled))
  started : ∃ l, Started polls clock s l

section
variable {polls : ℕ → Poll} {clock : ℕ → ℤ} {dataLength : ℕ} {data : Option (ℕ → UInt8)}
  {s t : ReadState} {status : Status}

theorem start_progress : Progress polls clock data ⟨data, 0, clock 0, 0⟩ where
  read := rfl
  data_eq := by
    have hstored : stored (received polls 0) = id := rfl
    rw [hstored, Option.map_id_fun]
    rfl
  started := ⟨0, le_rfl, rfl, Or.inl rfl, fun j _ hj => absurd hj (Nat.not_lt_zero j)⟩

theorem Progress.silent (h : Progress polls clock data s) (hpoll : (polls s.polled).rxStatus ≠ 0) :
    Progress polls clock data {s with polled := s.polled+1} := by
  obtain ⟨l, hl⟩ := h.started
  refine ⟨?_, ?_, l, hl.le.trans (Nat.le_succ _), hl.timer, hl.byte, ?_⟩
  · rw [received_of_ne_zero hpoll]
    exact h.read
  · rw [received_of_ne_zero hpoll]
    exact h.data_eq
  · intro j hlj hj
    rcases Nat.lt_succ_iff_lt_or_eq.mp hj with hj | rfl
    · exact hl.silent j hlj hj
    · exact hpoll

theorem Progress.byte (h : Progress polls clock data s) (hpoll : (polls s.polled).rxStatus = 0) :
    Progress polls clock data {s with
      polled := s.polled+1
      data := s.data.map fun data => Function.update data s.dataRead (polls s.polled).c
      dataRead := s.dataRead+1
      startTimer := clock (s.polled+1) } := by
  refine ⟨?_, ?_, s.polled+1, le_rfl, rfl, Or.inr hpoll, ?_⟩
  · rw [received_of_zero hpoll, List.length_append, List.length_singleton, h.read]
  · rw [received_of_zero hpoll, h.data_eq, h.read]
    cases data with
    | none => rfl
    | some data => exact congrArg some (update_stored _ data _)
  · intro j hlj hj
    exact absurd hj (Nat.not_lt.mpr hlj)

theorem readStep_byte (hpoll : (polls s.polled).rxStatus = 0) :
    readStep polls clock s = (none, {s with
      polled := s.polled+1
      data := s.data.map fun data => Function.update data s.dataRead (polls s.polled).c
      dataRead := s.dataRead+1
      startTimer := clock (s.polled+1) }) := if_pos hpoll

theorem readStep_silent (hpoll : (polls s.polled).rxStatus ≠ 0) :
    readStep polls clock s =
      (failedPoll (polls s.polled).rxStatus (clock (s.polled+1)-s.startTimer),
        {s with polled := s.polled+1}) := if_neg hpoll

theorem failedPoll_spec (rxStatus elapsed : ℤ) :
    (failedPoll rxStatus elapsed = none → elapsed ≤ uartTimeout) ∧
      failedPoll rxStatus elapsed ≠ some statusOk ∧
      (failedPoll rxStatus elapsed = some protocolStatusTimeout → elapsed > uartTimeout) := by
  rw [failedPoll]
  split_ifs with hlate
  · exact ⟨fun h => absurd h (by decide), by decide, fun _ => hlate⟩
  · exact ⟨fun _ => not_lt.mp hlate, by decide, fun h => absurd h (by decide)⟩
  · exact ⟨fun _ => not_lt.mp hlate, by decide, fun h => absurd h (by decide)⟩
  · exact ⟨fun _ => not_lt.mp hlate, by decide, fun h => absurd h (by decide)⟩

/-- The loop ends right after the last byte that it needs. -/
def Exactly (polls : ℕ → Poll) (n k : ℕ) : Prop :=
  (received polls k).length = n ∧ ∀ j < k, (received polls j).length < n

/-- Where the loop returns, what was received is stored, and an error came before the last byte. -/
structure Returned (polls : ℕ → Poll) (clock : ℕ → ℤ) (dataLength : ℕ) (data : Option (ℕ → UInt8))
    (status : Status) (t : ReadState) : Prop where
  progress : Progress polls clock data t
  ok : status = statusOk → Exactly polls dataLength t.polled
  error : status ≠ statusOk → t.dataRead < dataLength
  timeout : status = protocolStatusTimeout → clock t.polled-t.startTimer > uartTimeout

theorem readLoop_returned {fuel : ℕ} (h : Progress polls clock data s)
    (hbefore : ∀ j < s.polled, (received polls j).length < dataLength)
    (hle : s.dataRead ≤ dataLength) (ht : readLoop polls clock dataLength fuel s = some (status, t)) :
    Returned polls clock dataLength data status t := by
  induction fuel generalizing s with
  | zero => cases ht
  | succ fuel ih =>
    rw [readLoop] at ht
    split at ht
    · next hlt =>
      -- The read was not complete before this poll, or the loop would have ended.
      have hbefore' : ∀ j < s.polled+1, (received polls j).length < dataLength := by
        intro j hj
        rcases Nat.lt_succ_iff_lt_or_eq.mp hj with hj | rfl
        · exact hbefore j hj
        · rw [← h.read]
          exact hlt
      by_cases hpoll : (polls s.polled).rxStatus = 0
      · rw [readStep_byte hpoll] at ht
        exact ih (h.byte hpoll) hbefore' hlt ht
      · rw [readStep_silent hpoll] at ht
        obtain ⟨-, hok, hlate⟩ :=
          failedPoll_spec (polls s.polled).rxStatus (clock (s.polled+1)-s.startTimer)
        cases hstatus : failedPoll (polls s.polled).rxStatus (clock (s.polled+1)-s.startTimer) with
        | none =>
          rw [hstatus] at ht
          exact ih (h.silent hpoll) hbefore' hle ht
        | some status' =>
          rw [hstatus] at ht hok hlate
          cases ht
          refine ⟨h.silent hpoll, fun hs => absurd (congrArg some hs) hok, fun _ => hlt, ?_⟩
          exact fun hs => hlate (congrArg some hs)
    · next hge =>
      cases ht
      refine ⟨h, fun _ => ⟨?_, hbefore⟩, fun hs => absurd rfl hs, ?_⟩
      · rw [← h.read]
        omega
      · exact fun hs => absurd hs.symm protocolTimeout_ne

theorem protocolReadData_returned {fuel : ℕ}
    (ht : protocolReadData polls clock dataLength true data fuel = some (status, t)) :
    Returned polls clock dataLength data status t := by
  rw [protocolReadData, if_neg (by decide)] at ht
  exact readLoop_returned start_progress (fun j hj => absurd hj (Nat.not_lt_zero j)) (Nat.zero_le _) ht

/-! ### A null pointer -/

def ReadState.withoutData (s : ReadState) : ReadState := {s with data := none}

theorem readStep_withoutData (s : ReadState) : readStep polls clock s.withoutData =
    ((readStep polls clock s).1, (readStep polls clock s).2.withoutData) := by
  by_cases hpoll : (polls s.polled).rxStatus = 0
  · rw [readStep_byte hpoll, readStep_byte (s := s.withoutData) hpoll]
    rfl
  · rw [readStep_silent hpoll, readStep_silent (s := s.withoutData) hpoll]
    rfl

theorem readLoop_withoutData (fuel : ℕ) (s : ReadState) :
    readLoop polls clock dataLength fuel s.withoutData =
      (readLoop polls clock dataLength fuel s).map fun r => (r.1, r.2.withoutData) := by
  induction fuel generalizing s with
  | zero => rfl
  | succ fuel ih =>
    rw [readLoop, readLoop, readStep_withoutData]
    have hread : s.withoutData.dataRead = s.dataRead := rfl
    rw [hread]
    split
    · rcases readStep polls clock s with ⟨status, s'⟩
      cases status with
      | none => exact ih s'
      | some status => rfl
    · rfl

/-! ### Two reads -/

theorem Exactly.add {n n' k k' : ℕ} (h : Exactly polls n k)
    (h' : Exactly (fun j => polls (k+j)) n' k') : Exactly polls (n+n') (k+k') := by
  constructor
  · rw [received_add, List.length_append, h.1, h'.1]
  · intro j hj
    rcases Nat.lt_or_ge j k with hlt | hge
    · exact (h.2 j hlt).trans_le (Nat.le_add_right n n')
    · have hrest := h'.2 (j-k) (by omega)
      rw [← Nat.add_sub_of_le hge, received_add, List.length_append, h.1]
      omega

theorem Exactly.unique {n k k' : ℕ} (h : Exactly polls n k) (h' : Exactly polls n k') : k = k' := by
  rcases Nat.lt_trichotomy k k' with hlt | heq | hgt
  · exact absurd h.1 (h'.2 k hlt).ne
  · exact heq
  · exact absurd h'.1 (h.2 k' hgt).ne

/-! ### The loop ends -/

/-- Between two bytes there are at most 500 polls that bring nothing: `e` of them since the timer was
started. -/
theorem readLoop_isSome (hclock : ∀ q, clock q < clock (q+1)) {fuel l e : ℕ}
    (htimer : s.startTimer = clock l) (hpolled : s.polled = l+e) (he : e ≤ 500)
    (hle : s.dataRead ≤ dataLength) (hfuel : 501*(dataLength-s.dataRead)+1 ≤ fuel+e)
    (hpos : 0 < fuel) :
    (readLoop polls clock dataLength fuel s).isSome = true := by
  induction fuel generalizing s l e with
  | zero => exact absurd hpos (lt_irrefl 0)
  | succ fuel ih =>
    rw [readLoop]
    split
    swap
    · rfl
    next hlt =>
      by_cases hpoll : (polls s.polled).rxStatus = 0
      · rw [readStep_byte hpoll]
        refine ih (l := s.polled+1) (e := 0) rfl rfl (Nat.zero_le _) hlt ?_ (by omega)
        simp only
        omega
      · rw [readStep_silent hpoll]
        have hnone := (failedPoll_spec (polls s.polled).rxStatus (clock (s.polled+1)-s.startTimer)).1
        cases hstatus : failedPoll (polls s.polled).rxStatus (clock (s.polled+1)-s.startTimer) with
        | some status => rfl
        | none =>
          -- The clock has advanced by one for each of the polls, and the timeout has not come.
          have hadvance (m : ℕ) : clock l+m ≤ clock (l+m) := by
            induction m with
            | zero => simp
            | succ m ihm =>
              have hnext := hclock (l+m)
              push_cast
              rw [← Nat.add_assoc]
              omega
          have hlate := hnone hstatus
          have hnow := hadvance (e+1)
          rw [htimer, hpolled, Nat.add_assoc, uartTimeout] at hlate
          push_cast at hnow
          refine ih (l := l) (e := e+1) htimer ?_ (by omega) hle ?_ (by omega)
          · show s.polled+1 = l+(e+1)
            omega
          · show 501*(dataLength-s.dataRead)+1 ≤ fuel+(e+1)
            omega

/-- More checks of the condition than it takes change nothing. -/
theorem readLoop_mono {fuel fuel' : ℕ} {r : Status × ReadState} (hle : fuel ≤ fuel')
    (h : readLoop polls clock dataLength fuel s = some r) :
    readLoop polls clock dataLength fuel' s = some r := by
  induction fuel generalizing fuel' s with
  | zero => cases h
  | succ fuel ih =>
    obtain ⟨fuel', rfl⟩ := Nat.exists_eq_succ_of_ne_zero (Nat.ne_zero_of_lt hle)
    rw [readLoop] at h ⊢
    split at h
    · next hlt =>
      rw [if_pos hlt]
      split at h
      · exact h
      · exact ih (Nat.le_of_succ_le_succ hle) h
    · next hge =>
      rw [if_neg hge]
      exact h

/-- A poll after which the loop goes on takes one check of the condition. -/
theorem exists_readLoop_next (hlt : s.dataRead < dataLength)
    (hstep : readStep polls clock s = (none, s'))
    (h : ∃ fuel, (readLoop polls clock dataLength fuel s').isSome = true) :
    ∃ fuel, (readLoop polls clock dataLength fuel s).isSome = true := by
  obtain ⟨fuel, hsome⟩ := h
  refine ⟨fuel+1, ?_⟩
  rw [readLoop, if_pos hlt, hstep]
  exact hsome

/-- With a clock that does not go back and that grows in the long run the loop ends: when there are no
more bytes, the timeout comes. -/
theorem exists_readLoop (hmono : Monotone clock) (hgrows : ∀ t, ∃ q, t < clock q) (s : ReadState) :
    ∃ fuel, (readLoop polls clock dataLength fuel s).isSome = true := by
  -- The induction is on the bytes that are missing, and then on the polls up to the timeout.
  induction hmissing : dataLength-s.dataRead generalizing s with
  | zero => exact ⟨1, by rw [readLoop, if_neg (by omega)]; rfl⟩
  | succ missing ih =>
    obtain ⟨q, hq⟩ := hgrows (s.startTimer+uartTimeout)
    have hlt : s.dataRead < dataLength := by omega
    induction hleft : q-s.polled generalizing s with
    | zero =>
      by_cases hpoll : (polls s.polled).rxStatus = 0
      · exact exists_readLoop_next hlt (readStep_byte hpoll) (ih _ (by simp only; omega))
      have hlate : clock q ≤ clock (s.polled+1) := hmono (by omega)
      refine ⟨1, ?_⟩
      rw [readLoop, if_pos hlt, readStep_silent hpoll, failedPoll, if_pos (by omega)]
      rfl
    | succ left ihleft =>
      by_cases hpoll : (polls s.polled).rxStatus = 0
      · exact exists_readLoop_next hlt (readStep_byte hpoll) (ih _ (by simp only; omega))
      have hstep : readStep polls clock s = _ := readStep_silent hpoll
      cases hstatus : failedPoll (polls s.polled).rxStatus (clock (s.polled+1)-s.startTimer) with
      | some status =>
        rw [hstatus] at hstep
        exact ⟨1, by rw [readLoop, if_pos hlt, hstep]; rfl⟩
      | none =>
        rw [hstatus] at hstep
        apply exists_readLoop_next hlt hstep
        exact ihleft {s with polled := s.polled+1} hmissing hq hlt (by simp only; omega)

/-- To the protocol above the UART looks like a line that delivers the bytes that were received, and then
the error if there is one. -/
theorem Returned.lowerLayer (h : Returned polls clock dataLength data status t) (rest : Rx) :
    (status = statusOk → KenningRuntime.protocolReadData dataLength
      (bytes (received polls t.polled) ++ rest) = (status, received polls t.polled, rest)) ∧
    ∀ hs : status ≠ statusOk, KenningRuntime.protocolReadData dataLength
      (bytes (received polls t.polled) ++ .fault ⟨status, hs⟩ :: rest) =
        (status, received polls t.polled, rest) := by
  constructor
  · intro hs
    rw [← (h.ok hs).1, protocolReadData_bytes, hs]
  · intro hs
    have hlt := h.error hs
    rw [h.progress.read] at hlt
    rw [KenningRuntime.protocolReadData, read_fault _ _ _ _ hlt]

end

/-! ### Reads of the UART -/

/-- What the memories hold after two successful reads and after one read of as many bytes. -/
theorem stored_two_reads (bytes bytes' : List UInt8) (data data' data'' : ℕ → UInt8) :
    (∀ i < bytes.length, stored (bytes ++ bytes') data'' i = stored bytes data i) ∧
      ∀ i < bytes'.length, stored (bytes ++ bytes') data'' (bytes.length+i) = stored bytes' data' i := by
  constructor
  · intro i hi
    rw [stored, stored, List.getElem?_append_left hi, List.getElem?_eq_getElem hi, Option.getD_some,
      Option.getD_some]
  · intro i hi
    rw [stored, stored, List.getElem?_append_right (Nat.le_add_right _ i), Nat.add_sub_cancel_left,
      List.getElem?_eq_getElem hi, Option.getD_some, Option.getD_some]

/-- A read returns `STATUS_OK` exactly at the last byte it needs and an error before it, with the bytes
stored in order; a timeout only comes when more than 500 ms have passed since the last byte. A null pointer
changes nothing else, two reads store what one does, and with a clock that advances a read ends. Before
the UART is initialized nothing is polled. -/
theorem protocolReadData_reads (polls : ℕ → Poll) :
    (∀ clock dataLength data fuel status t,
      protocolReadData polls clock dataLength true data fuel = some (status, t) →
        Returned polls clock dataLength data status t) ∧
    (∀ clock dataLength initialized data fuel,
      protocolReadData polls clock dataLength initialized none fuel =
        (protocolReadData polls clock dataLength initialized data fuel).map fun r =>
          (r.1, r.2.withoutData)) ∧
    (∀ clock clock' clock'' n n' data data' data'' fuel fuel' fuel'' t t' t'',
      protocolReadData polls clock n true (some data) fuel = some (statusOk, t) →
      protocolReadData (fun j => polls (t.polled+j)) clock' n' true (some data') fuel' =
        some (statusOk, t') →
      protocolReadData polls clock'' (n+n') true (some data'') fuel'' = some (statusOk, t'') →
        t''.polled = t.polled+t'.polled ∧
        ∃ d d' d'', t.data = some d ∧ t'.data = some d' ∧ t''.data = some d'' ∧
          (∀ i < n, d'' i = d i) ∧ ∀ i < n', d'' (n+i) = d' i) ∧
    (∀ clock dataLength initialized data fuel, (∀ q, clock q < clock (q+1)) →
      501*dataLength+1 ≤ fuel →
        (protocolReadData polls clock dataLength initialized data fuel).isSome = true) ∧
    ∀ clock dataLength data fuel, protocolReadData polls clock dataLength false data fuel =
      some (protocolStatusUninit, ⟨data, 0, 0, 0⟩) := by
  refine ⟨?_, ?_, ?_, ?_, fun _ _ _ _ => rfl⟩
  · intro clock dataLength data fuel status t ht
    exact protocolReadData_returned ht
  · intro clock dataLength initialized data fuel
    cases initialized with
    | false => rfl
    | true => exact readLoop_withoutData fuel ⟨data, 0, clock 0, 0⟩
  · intro clock clock' clock'' n n' data data' data'' fuel fuel' fuel'' t t' t'' ht ht' ht''
    have hr := protocolReadData_returned ht
    have hr' := protocolReadData_returned ht'
    have hr'' := protocolReadData_returned ht''
    -- The read of all the bytes ends where the second of the two reads does.
    have hpolled := (hr''.ok rfl).unique ((hr.ok rfl).add (hr'.ok rfl))
    have hbytes := received_add polls t.polled t'.polled
    rw [← hpolled] at hbytes
    obtain ⟨hfirst, hsecond⟩ := stored_two_reads (received polls t.polled)
      (received (fun j => polls (t.polled+j)) t'.polled) data data' data''
    rw [(hr.ok rfl).1] at hfirst hsecond
    rw [(hr'.ok rfl).1] at hsecond
    refine ⟨hpolled, _, _, _, hr.progress.data_eq, hr'.progress.data_eq, hr''.progress.data_eq, ?_⟩
    rw [hbytes]
    exact ⟨hfirst, hsecond⟩
  · intro clock dataLength initialized data fuel hclock hfuel
    cases initialized with
    | false => rfl
    | true =>
      exact readLoop_isSome (l := 0) (e := 0) hclock rfl rfl (Nat.zero_le _) (Nat.zero_le _) hfuel
        (by omega)

/-- A read of no bytes at all fails before the UART is initialized, and has not read fewer than that. -/
theorem protocolReadData_uninitialized :
    (protocolReadData (fun _ => ⟨0, 7⟩) (fun q => q) 0 false none 1).map
        (fun r => (r.1, r.2.dataRead)) = some (protocolStatusUninit, 0) ∧
      ¬ ∀ polls clock dataLength initialized data fuel status t,
        protocolReadData polls clock dataLength initialized data fuel = some (status, t) →
          status ≠ statusOk → t.dataRead < dataLength := by
  refine ⟨rfl, ?_⟩
  intro h
  have hlt := h (fun _ => ⟨0, 7⟩) (fun q => q) 0 false none 1 _ _ rfl (by decide)
  exact absurd hlt (lt_irrefl 0)

end Uart

end KenningRuntime
