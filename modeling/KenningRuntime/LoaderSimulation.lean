import KenningRuntime.Listening

/-! Two loaders that answer alike: the receiver cannot tell them apart, on any input. -/
namespace KenningRuntime

variable {W S : Type}

/-- `ldr` and `ldr'` answer alike and keep their states related by `R`. -/
structure MsgLoader.Simulates (R : W → S → Prop) (ldr : MsgLoader W) (ldr' : MsgLoader S) : Prop where
  save_status : ∀ w s src, R w s → (ldr.save w src).1 = (ldr'.save s src).1
  save_state : ∀ w s src, R w s → R (ldr.save w src).2 (ldr'.save s src).2

/-- Two receptions with the same status and the same input left, and related loaders. -/
def SameReception (R : W → S → Prop) (r : Status × W × Rx) (r' : Status × S × Rx) : Prop :=
  r.1 = r'.1 ∧ r.2.2 = r'.2.2 ∧ R r.2.1 r'.2.1

section
variable (cfg : Config) {R : W → S → Prop} {ldr : MsgLoader W} {ldr' : MsgLoader S} {w : W} {s : S}

theorem receivePayloadLoop_same (h : ldr.Simulates R ldr') (hR : R w s) (fuel n : ℕ)
    (status : Status) (rx : Rx) :
    SameReception R (receivePayloadLoop cfg ldr fuel n status w rx)
      (receivePayloadLoop cfg ldr' fuel n status s rx) := by
  induction fuel generalizing n status w s rx with
  | zero => exact ⟨rfl, rfl, hR⟩
  | succ fuel ih =>
    simp only [receivePayloadLoop, toRead_eq]
    by_cases hn : n = 0
    · rw [if_pos hn, if_pos hn]
      exact ⟨rfl, rfl, hR⟩
    rw [if_neg hn, if_neg hn]
    -- Both read the same bytes, and the two saves answer alike.
    rcases protocolReadData (min n cfg.messageRecvBufferSize) rx with ⟨st, data, rx'⟩
    by_cases hs : checkProtocolStatus st = statusOk
    · simp only [hs, ne_eq, not_true_eq_false, if_false, h.save_status w s data hR]
      exact ih (h.save_state w s data hR) _ _ _
    · simp only [hs, ne_eq, not_false_eq_true, if_true]
      exact ⟨rfl, rfl, hR⟩

theorem receiveMessagesLoop_same (h : ldr.Simulates R ldr') (hR : R w s) (messageType : BitVec 38)
    (flowControlFlags : BitVec 2) (fuel : ℕ) (hdr : MessageHdr) (rx : Rx) :
    SameReception R (receiveMessagesLoop cfg ldr messageType flowControlFlags fuel hdr w rx)
      (receiveMessagesLoop cfg ldr' messageType flowControlFlags fuel hdr s rx) := by
  induction fuel generalizing hdr w s rx with
  | zero => exact ⟨rfl, rfl, hR⟩
  | succ fuel ih =>
    -- Up to the next header the two have done the same.
    have hpart : SameReception R
        (if hdr.flags.hasPayload then receiveMessagePayload cfg ldr hdr.payloadSize.toNat w rx
          else (statusOk, w, rx))
        (if hdr.flags.hasPayload then receiveMessagePayload cfg ldr' hdr.payloadSize.toNat s rx
          else (statusOk, s, rx)) := by
      split
      · exact receivePayloadLoop_same cfg h hR _ _ _ _
      · exact ⟨rfl, rfl, hR⟩
    rw [receiveMessagesLoop, receiveMessagesLoop]
    revert hpart
    generalize (if hdr.flags.hasPayload then
      receiveMessagePayload cfg ldr hdr.payloadSize.toNat w rx else (statusOk, w, rx)) = r
    generalize (if hdr.flags.hasPayload then
      receiveMessagePayload cfg ldr' hdr.payloadSize.toNat s rx else (statusOk, s, rx)) = r'
    rcases r with ⟨status, w₁, rx₁⟩
    rcases r' with ⟨status', s₁, rx₁'⟩
    intro hall
    obtain ⟨hst, hrx, hR₁⟩ := hall
    obtain rfl : status = status' := hst
    obtain rfl : rx₁ = rx₁' := hrx
    simp only
    by_cases hs : status = statusOk
    swap
    · rw [if_pos hs, if_pos hs]
      exact ⟨rfl, rfl, hR₁⟩
    rw [if_neg (not_not_intro hs), if_neg (not_not_intro hs)]
    by_cases hl : hdr.flags.last = true
    · rw [if_pos hl, if_pos hl]
      exact ⟨rfl, rfl, hR₁⟩
    rw [if_neg hl, if_neg hl]
    rcases receiveMessageHeader rx₁ with ⟨status₂ | hdr₂, rx₂⟩
    · exact ⟨rfl, rfl, hR₁⟩
    simp only
    by_cases ht : hdr₂.messageType = messageType
    swap
    · rw [if_pos ht, if_pos ht]
      exact ⟨rfl, rfl, hR₁⟩
    rw [if_neg (not_not_intro ht), if_neg (not_not_intro ht)]
    by_cases hf : hdr₂.flowControlFlags = flowControlFlags
    swap
    · rw [if_pos hf, if_pos hf]
      exact ⟨rfl, rfl, hR₁⟩
    rw [if_neg (not_not_intro hf), if_neg (not_not_intro hf)]
    exact ih hR₁ hdr₂ rx₂

theorem receiveMessages_same (h : ldr.Simulates R ldr') (hR : R w s) (hdr : MessageHdr) (rx : Rx) :
    SameReception R (receiveMessages cfg ldr hdr w rx) (receiveMessages cfg ldr' hdr s rx) :=
  receiveMessagesLoop_same cfg h hR _ _ _ _ _

/-- What every save keeps, a reception keeps. -/
theorem receiveMessages_keeps {P : W → Prop} (h : ∀ w src, P w → P (ldr.save w src).2) (hw : P w)
    (hdr : MessageHdr) (rx : Rx) : P (receiveMessages cfg ldr hdr w rx).2.1 := by
  have hself : ldr.Simulates (fun w s => w = s ∧ P w) ldr := by
    constructor
    · intro w _ src hall
      obtain ⟨rfl, -⟩ := hall
      rfl
    · intro w _ src hall
      obtain ⟨rfl, hp⟩ := hall
      exact ⟨rfl, h w src hp⟩
  exact (receiveMessages_same cfg hself ⟨rfl, hw⟩ hdr rx).2.2.2

theorem receiveMessages_save {ldr ldr' : MsgLoader W} (h : ldr.save = ldr'.save) (hdr : MessageHdr)
    (w : W) (rx : Rx) : receiveMessages cfg ldr hdr w rx = receiveMessages cfg ldr' hdr w rx := by
  have hsame : ldr.Simulates Eq ldr' := by
    constructor
    · intro w _ src hrx
      subst hrx
      rw [h]
    · intro w _ src hrx
      subst hrx
      rw [h]
  obtain ⟨hs, hrx, hw⟩ := receiveMessages_same cfg hsame (rfl : w = w) hdr rx
  exact Prod.ext hs (Prod.ext hw hrx)

end

/-! ### A component's loader -/

theorem MsgLoader.lift_simulates (L : Lens W S) (ldr : MsgLoader S) (w₀ : W) :
    (ldr.lift L).Simulates (fun w s => w = L.set w₀ s) ldr := by
  constructor
  · intro w s src hrx
    subst hrx
    simp only [MsgLoader.lift, Lens.get_set]
  · intro w s src hrx
    subst hrx
    simp only [MsgLoader.lift, Lens.get_set, Lens.set_set]

/-- A reception with a component's loader leaves the rest of the state alone. -/
theorem receiveMessages_lift (cfg : Config) (L : Lens W S) (ldr : MsgLoader S) (hdr : MessageHdr)
    (w : W) (rx : Rx) :
    receiveMessages cfg (ldr.lift L) hdr w rx =
      ((receiveMessages cfg ldr hdr (L.get w) rx).1,
        L.set w (receiveMessages cfg ldr hdr (L.get w) rx).2.1,
        (receiveMessages cfg ldr hdr (L.get w) rx).2.2) := by
  obtain ⟨hs, hrx, hw⟩ := receiveMessages_same cfg (ldr.lift_simulates L w) (w := w) (s := L.get w)
    (L.set_get w).symm hdr rx
  exact Prod.ext hs (Prod.ext hw hrx)

/-! ### What a call does to the loaders -/

section
variable (cfg : Config) {loaderCallback : W → MessageType → Option (MsgLoader W)} {w : W} {rx : Rx}
  {r : ListenResult W}

/-- An opening message with a payload resets the loader of its type, and if that succeeds the payload
is saved into it. -/
theorem protocolListen_opened {hdr : MessageHdr} {t : MessageType} (hopens : Opens hdr t)
    (hp : hdr.flags.hasPayload = true)
    (h : protocolListen cfg loaderCallback w (ByteSource.bytes hdr.encode ++ rx) = some r) :
    ∃ ldr, loaderCallback w t = some ldr ∧ (r.world = (ldr.reset w).2 ∨
      r.world = (receiveMessages cfg ldr hdr (ldr.reset w).2 rx).2.1) := by
  rcases hldr : loaderCallback w t with _ | ldr
  · rw [protocolListen_null cfg loaderCallback hopens hp hldr] at h
    cases h
  refine ⟨ldr, rfl, ?_⟩
  rw [protocolListen_payload cfg loaderCallback hopens hp hldr] at h
  split at h
  · cases h
    exact Or.inl rfl
  · apply Or.inr
    rcases hrec : receiveMessages cfg ldr hdr (ldr.reset w).2 rx with ⟨status, w', rx'⟩
    rw [hrec] at h
    simp only at h
    split at h <;> cases h <;> rfl

/-- Nothing else touches the loaders. -/
theorem protocolListen_world (h : protocolListen cfg loaderCallback w rx = some r) :
    r.world = w ∨ ∃ hdr t rest ldr, rx = ByteSource.bytes hdr.encode ++ rest ∧ Opens hdr t ∧
      hdr.flags.hasPayload = true ∧ loaderCallback w t = some ldr ∧
      (r.world = (ldr.reset w).2 ∨
        r.world = (receiveMessages cfg ldr hdr (ldr.reset w).2 rest).2.1) := by
  rcases protocolListen_cases cfg loaderCallback rx with ⟨hdr, t, rest, hopens, rfl⟩ | hfail
  swap
  · obtain ⟨status, rest, -, herr⟩ := hfail
    rw [herr] at h
    cases h
    exact Or.inl rfl
  by_cases hp : hdr.flags.hasPayload = true
  · obtain ⟨ldr, hldr, hw⟩ := protocolListen_opened cfg hopens hp h
    exact Or.inr ⟨hdr, t, rest, ldr, rfl, hopens, hp, hldr, hw⟩
  · rw [protocolListen_empty cfg loaderCallback hopens (Bool.not_eq_true _ ▸ hp)] at h
    cases h
    exact Or.inl rfl

/-- If the loaders belong to components, the call changes one component at most. -/
theorem protocolListen_component {L : Lens W S} {ldr : MsgLoader S} {hdr : MessageHdr} {rest : Rx}
    {w' : W} (h : w' = ((ldr.lift L).reset w).2 ∨
      w' = (receiveMessages cfg (ldr.lift L) hdr ((ldr.lift L).reset w).2 rest).2.1) :
    w' = L.set w (ldr.reset (L.get w)).2 ∨
      w' = L.set w (receiveMessages cfg ldr hdr (ldr.reset (L.get w)).2 rest).2.1 := by
  rcases h with h | h
  · exact Or.inl h
  · apply Or.inr
    rw [h, receiveMessages_lift]
    simp only [MsgLoader.lift, Lens.get_set, Lens.set_set]

end

/-- What a reception does to the component of a loader: the reset, and the saves behind it. -/
inductive Wrote {S : Type} (cfg : Config) (ldr : MsgLoader S) (s : S) : S → Prop
  | reset : Wrote cfg ldr s (ldr.reset s).2
  | saved (hdr : MessageHdr) (rest : Rx) :
      Wrote cfg ldr s (receiveMessages cfg ldr hdr (ldr.reset s).2 rest).2.1

theorem Wrote.keeps {S : Type} {cfg : Config} {ldr : MsgLoader S} {s s' : S} {P : S → Prop}
    (h : Wrote cfg ldr s s') (hreset : P (ldr.reset s).2) (hsave : ∀ s src, P s → P (ldr.save s src).2) :
    P s' := by
  cases h with
  | reset => exact hreset
  | saved hdr rest => exact receiveMessages_keeps cfg hsave hreset hdr rest

end KenningRuntime
