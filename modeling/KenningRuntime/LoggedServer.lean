import KenningRuntime.LoggedSession
import KenningRuntime.SessionBackends

/-! The server with logging: what the log statements of a round write goes out on the same line as the
response, and a client that tells the two apart loses neither. -/
namespace KenningRuntime
open ByteSource SizedEntries Transition
open Line (OutermostCall outermostStep nextEntry View Viewed Shows Carries)

/-- The texts of the log statements in a round of the main loop, before the response is sent and after
it. -/
structure RoundLog where
  before : List (List UInt8)
  after : List (List UInt8)

/-- What a round does with the line: it handles log messages, and transmits the response if there is
one. -/
def RoundLog.calls (log : RoundLog) (response : Option TransmitEvent) : List OutermostCall :=
  log.before.map .process ++ (response.map .protocolTransmit).toList ++ log.after.map .process

/-- The server, its input and the line. -/
structure LoggingStation (cfg : Config) (S : Type) (N : ℕ) where
  server : Server cfg S
  rx : Rx
  line : Line N

section
variable {cfg : Config} {S : Type} {N : ℕ} (B : Build S) (checksum : ℕ → BitVec 8)
  (text : ℕ → LogStatement → Option (List UInt8)) (fuel : ℕ)

/-- The response to an event, if one is sent, and the server that the callback leaves; `none` if the
callback does not return or the response is larger than `resp_payload`. -/
def handleLogged (event : ProtocolEvent) (server : Server cfg S) :
    Option (Option TransmitEvent × Server cfg S) :=
  match msgCallback B event server event.messageType with
  | none => none
  | some answer =>
    if event.isRequest then
      if answer.payloadSize ≤ cfg.responsePayloadSize then
        some (some (response event.messageType answer), answer.server)
      else none
    else some (none, answer.server)

/-- One round of the main loop (app/src/main.c) with these log messages. -/
def loggedRound (station : LoggingStation cfg S N) (log : RoundLog) : Option (LoggingStation cfg S N) :=
  match waitForProtocolEvent B station.server station.rx with
  | none => none
  | some ⟨.error _, server, rx⟩ =>
    (run (outermostStep cfg checksum text fuel) station.line (log.calls none)).map (⟨server, rx, ·⟩)
  | some ⟨.ok event, server, rx⟩ =>
    match handleLogged B event server with
    | none => none
    | some (response, server) =>
      (run (outermostStep cfg checksum text fuel) station.line (log.calls response)).map
        (⟨server, rx, ·⟩)

variable {B checksum text fuel}

/-- The event is handled as without logging. -/
theorem handleLogged_eq (checksum : ℕ → BitVec 8) (event : ProtocolEvent) (server : Server cfg S)
    (tx : Tx) :
    handleLogged B event server = (handleProtocolEvent checksum B event server tx).map
      fun handled => (handled.transmitted.head?, handled.server) := by
  rw [handleLogged, handleProtocolEvent]
  rcases msgCallback B event server event.messageType with _ | answer
  · rfl
  simp only
  split
  · split
    · rfl
    · rfl
  · rfl

/-- A round leaves the server that a round without logging leaves, and as much of the input, whatever
is logged; the round without logging may find the line in any state. -/
theorem loggedRound_mainRound {station : LoggingStation cfg S N} (hidle : station.line.Idle)
    (log : RoundLog) (tx : Tx) :
    (loggedRound B checksum text (fuel+2) station log).map (fun s => (s.server, s.rx)) =
      (mainRound B ⟨station.server, station.rx, tx⟩ checksum).map fun s => (s.server, s.rx) := by
  have hruns (response : Option TransmitEvent) :
      ∃ line, run (outermostStep cfg checksum text (fuel+2)) station.line (log.calls response) =
        some line := by
    obtain ⟨line, hreaches, -⟩ := Line.run_idle hidle fuel (log.calls response)
    exact ⟨line, hreaches.run_eq⟩
  rw [loggedRound, mainRound]
  rcases waitForProtocolEvent B station.server station.rx with _ | ⟨status | event, server, rx⟩
  · rfl
  · obtain ⟨line, hline⟩ := hruns none
    simp only [hline, Option.map_some]
  · simp only [handleLogged_eq checksum event server tx]
    rcases handleProtocolEvent checksum B event server tx with _ | handled
    · rfl
    · obtain ⟨line, hline⟩ := hruns handled.transmitted.head?
      simp only [Option.map_some, hline]

end

/-! ### What the client hears -/

/-- What is said on the line. -/
inductive Utterance where
  | reply (messageType : MessageType) (reply : Reply)
  | log (chars : List UInt8)

/-- What is said in a session with these log messages, one after the other. -/
def Session.utterances (M : Models) : Session → List Ask → List RoundLog → List Utterance
  | session, ask :: asks, log :: logs =>
    log.before.map .log ++
      (if ask.asked then [.reply ask.request.messageType (session.next M ask.request).2] else []) ++
      log.after.map .log ++ (session.next M ask.request).1.utterances M asks logs
  | _, _, _ => []

/-- The call that says it. -/
inductive Speaks (cfg : Config) (checksum : ℕ → BitVec 8) : Utterance → OutermostCall → Prop
  | reply {messageType : MessageType} {reply : Reply} {event : TransmitEvent} :
      Responds cfg (messageType, reply, checksum) (checksum, event) →
        Speaks cfg checksum (.reply messageType reply) (.protocolTransmit event)
  | log (chars : List UInt8) : Speaks cfg checksum (.log chars) (.process chars)

/-- The event that carries it. The entry of a log message is behind those that waited. -/
inductive Voices (cfg : Config) (N : ℕ) (checksum : ℕ → BitVec 8) : Utterance → TransmitEvent → Prop
  | reply {messageType : MessageType} {reply : Reply} {event : TransmitEvent} :
      Responds cfg (messageType, reply, checksum) (checksum, event) →
        Voices cfg N checksum (.reply messageType reply) event
  | log {chars : List UInt8} {waiting : List (List UInt8)} {event : TransmitEvent} :
      Carries N (waiting ++ nextEntry N waiting chars) event →
        Voices cfg N checksum (.log chars) event

section
variable {W : Type} {C : MessageType → ℕ} (L : ∀ t, Lens W (BufLoader (C t)))

/-- A log message is read: an event of its own type, whose payload is a list of entries, the last of them
that of the message if there was room for it. -/
def LogArrives (N : ℕ) (chars : List UInt8) (r : ListenResult W) : Prop :=
  ∃ event waiting, r.event = .ok event ∧ event.messageType = .logs ∧
    parse (if event.flags.hasPayload then ((L .logs).get r.world).mem.take event.payloadSize else []) =
      some (waiting ++ nextEntry N waiting chars)

/-- The client hears what was said. -/
def Hears (N : ℕ) (r : ListenResult W) (checksum : ℕ → BitVec 8) : Utterance → Prop
  | .reply messageType reply => ReplyArrives L (messageType, reply, checksum) r
  | .log chars => LogArrives L N chars r

theorem logArrives_of_arrives {cfg : Config} {N : ℕ} {chars : List UInt8}
    {waiting : List (List UInt8)} {event : TransmitEvent} {cfg' : Config}
    {loaderCallback : W → MessageType → Option (MsgLoader W)} {call : W × ListenResult W}
    (h : Carries N (waiting ++ nextEntry N waiting chars) event)
    (harrives : Arrives L cfg cfg' loaderCallback event call) : LogArrives L N chars call.2 := by
  obtain ⟨received, hevent, hnumber, hflags, -, hpayload, -⟩ := harrives
  have htype : received.messageType = .logs := by
    rw [h.messageType] at hnumber
    have hlogs := MessageType.ofNumber?_number received.messageType
    rw [hnumber] at hlogs
    exact Option.some.inj (hlogs.symm.trans (by decide))
  refine ⟨received, waiting, hevent, htype, ?_⟩
  rw [← h.parse]
  by_cases hnil : event.payload = []
  · rw [hflags, firstFlags, hnil]
    rfl
  · have hp : received.flags.hasPayload = true := by
      rw [hflags, firstFlags]
      exact decide_eq_true (List.length_pos_of_ne_nil hnil)
    have hmemory := (hpayload hnil).2
    rw [htype] at hmemory
    rw [if_pos hp, hmemory]

end

/-! ### Sessions -/

section
variable {cfg : Config} {S : Type} {N : ℕ} {B : Build S} {M : Models} {E : Evaluates B.runtime M}
  {session : Session} {server : Server cfg S} {line : Line N}

theorem speaks_logs (cfg : Config) (checksum : ℕ → BitVec 8) (texts : List (List UInt8)) :
    List.Forall₂ (Speaks cfg checksum) (texts.map .log) (texts.map .process) := by
  induction texts with
  | nil => exact .nil
  | cons chars texts ih => exact .cons (.log chars) ih

/-- A request takes one round, whatever is logged on the way. -/
theorem loggedRound_ask (checksum : ℕ → BitVec 8) (text : ℕ → LogStatement → Option (List UInt8))
    (fuel : ℕ) (h : Serves E session server) (ask : Ask) (hadmits : session.Admits M cfg ask.request)
    (tail : Rx) (hidle : line.Idle) (log : RoundLog) :
    ∃ server' line' calls,
      loggedRound B checksum text (fuel+2) ⟨server, bytes (wires ask.messages) ++ tail, line⟩ log =
        some ⟨server', tail, line'⟩ ∧
      Serves E (session.next M ask.request).1 server' ∧ line'.Idle ∧
      Reaches (outermostStep cfg checksum text (fuel+2)) line calls line' ∧
      List.Forall₂ (Speaks cfg checksum) (log.before.map .log ++ (if ask.asked then
        [.reply ask.request.messageType (session.next M ask.request).2] else []) ++
          log.after.map .log) calls := by
  obtain ⟨m, ms, hmessages, hcarried⟩ := ask.exists_cons
  obtain ⟨event, received, answer, hlisten, htype, hasked, hcallback, hfits, hsuccess, hpayload,
    hserves⟩ := answered h hadmits hcarried
  rw [← hmessages] at hlisten
  have hwait : waitForProtocolEvent B server (bytes (wires ask.messages) ++ tail) =
      some ⟨.ok event, received, tail⟩ := by
    rw [waitForProtocolEvent, hlisten tail]
  let reply? := if ask.asked then some (response event.messageType answer) else none
  have hhandle : handleLogged B event received = some (reply?, answer.server) := by
    simp only [handleLogged, hcallback, hasked, if_pos hfits, reply?]
    split
    · rfl
    · rfl
  -- Whatever is logged around the response, every call on the line returns.
  obtain ⟨line', hreaches, hidle'⟩ := Line.run_idle hidle fuel (log.calls reply?)
  refine ⟨answer.server, line', log.calls reply?, ?_, hserves, hidle', hreaches, ?_⟩
  · rw [loggedRound, hwait]
    simp only [hhandle, hreaches.run_eq, Option.map_some]
  · have hreply : List.Forall₂ (Speaks cfg checksum) (if ask.asked then
        [.reply ask.request.messageType (session.next M ask.request).2] else [])
        (reply?.map .protocolTransmit).toList := by
      cases hs : ask.asked with
      | false =>
        simp only [reply?, hs, Bool.false_eq_true, if_false]
        exact .nil
      | true =>
        simp only [reply?, hs, if_true]
        refine .cons (.reply ⟨rfl, ?_, ?_⟩) .nil
        · rw [← htype]
          exact response_sent event.messageType hsuccess hpayload
        · show (answer.server.respPayload.bytes.take answer.payloadSize).length ≤
            cfg.responsePayloadSize
          rw [List.length_take]
          omega
    exact List.rel_append (List.rel_append (speaks_logs cfg checksum log.before) hreply)
      (speaks_logs cfg checksum log.after)

/-- The server is where the session is after every request, and the line was used for what was to be said,
in order. -/
theorem reaches_logged (checksum : ℕ → BitVec 8) (text : ℕ → LogStatement → Option (List UInt8))
    (fuel : ℕ) {asks : List Ask} (h : Serves E session server) (hadmits : session.AdmitsAll M cfg asks)
    (tail : Rx) (hidle : line.Idle) {logs : List RoundLog} (hlogs : logs.length = asks.length) :
    ∃ server' line' calls,
      Reaches (loggedRound B checksum text (fuel+2)) ⟨server, bytes (wiresOf asks) ++ tail, line⟩ logs
        ⟨server', tail, line'⟩ ∧
      Serves E (session.after M asks) server' ∧
      Reaches (outermostStep cfg checksum text (fuel+2)) line calls line' ∧
      List.Forall₂ (Speaks cfg checksum) (session.utterances M asks logs) calls := by
  induction asks generalizing session server line logs with
  | nil =>
    obtain rfl : logs = [] := List.eq_nil_of_length_eq_zero hlogs
    exact ⟨server, line, [], .refl _, h, .refl _, .nil⟩
  | cons ask asks ih =>
    cases logs with
    | nil => cases hlogs
    | cons log logs =>
      obtain ⟨server₁, line₁, calls₁, hround, hserves, hidle₁, hline, hspeaks⟩ :=
        loggedRound_ask checksum text fuel h ask hadmits.1 (bytes (wiresOf asks) ++ tail) hidle log
      obtain ⟨server', line', calls, hreaches, hend, hline', hspeaks'⟩ :=
        ih hserves hadmits.2 hidle₁ (Nat.succ.inj hlogs)
      refine ⟨server', line', calls₁ ++ calls, ?_, hend, hline.append hline', ?_⟩
      · rw [wiresOf_cons, bytes_append, List.append_assoc]
        exact .next hround hreaches
      · rw [Session.utterances]
        exact List.rel_append hspeaks hspeaks'

/-- On an initialized line every call puts out one event, which carries what the call was made for. -/
theorem voices_of_emits {checksum : ℕ → BitVec 8} {v v' : View} {calls : List OutermostCall}
    {text : ℕ → LogStatement → Option (List UInt8)} {events : List TransmitEvent}
    {utterances : List Utterance} (h : Emits (Shows N cfg checksum text) v calls events v')
    (hinit : v.uartInitialized = true) (hspeaks : List.Forall₂ (Speaks cfg checksum) utterances calls) :
    List.Forall₂ (Voices cfg N checksum) utterances events := by
  induction h generalizing utterances with
  | refl v =>
    cases hspeaks
    exact .nil
  | next hs _ ih =>
    cases hspeaks with
    | cons hspeak hspeaks =>
      cases hspeak with
      | reply hresponds =>
        cases hs with
        | transmits v event =>
          rw [if_pos hinit]
          exact .cons (.reply hresponds) (ih (View.foldl_say_initialized.trans hinit) hspeaks)
      | log chars =>
        cases hs with
        | reports hcarries => exact .cons (.log hcarries) (ih rfl hspeaks)
        | waits => cases hinit

theorem forall₂_comp {α β γ : Type} {P : α → β → Prop} {Q : β → γ → Prop} {T : α → γ → Prop}
    {xs : List α} {ys : List β} {zs : List γ} (h : List.Forall₂ P xs ys) (h' : List.Forall₂ Q ys zs)
    (hT : ∀ x y z, P x y → Q y z → T x z) : List.Forall₂ T xs zs := by
  induction h generalizing zs with
  | nil =>
    cases h'
    exact .nil
  | cons hxy _ ih =>
    cases h' with
    | cons hyz h' => exact .cons (hT _ _ _ hxy hyz) (ih h')

section
variable {W : Type} {C : MessageType → ℕ} (L : ∀ t, Lens W (BufLoader (C t)))
  {loaderCallback : W → MessageType → Option (MsgLoader W)}

theorem Voices.receivable
    (hclient : ∀ w t, loaderCallback w t = some ((msgLoaderBuf (C t)).lift (L t)) ∧
      cfg.responsePayloadSize ≤ C t) (hsize : N-1 ≤ C .logs) {checksum : ℕ → BitVec 8}
    {utterance : Utterance} {event : TransmitEvent} (h : Voices cfg N checksum utterance event) :
    Receivable L loaderCallback event := by
  cases h with
  | reply hresponds => exact responds_receivable L hclient hresponds
  | @log chars waiting _ hcarries =>
    have hshows : Shows N cfg (fun _ => 0) (fun _ _ => none) ⟨true, waiting, 0⟩ (.process chars) [event] _ :=
      .reports hcarries
    exact hshows.receivable L (fun w => (hclient w .logs).1) hsize (fun _ h => by cases h) event
      List.mem_cons_self

theorem Voices.hears {checksum : ℕ → BitVec 8} {utterance : Utterance} {event : TransmitEvent}
    {cfg' : Config} {listen : W × ListenResult W} (h : Voices cfg N checksum utterance event)
    (harrives : Arrives L cfg cfg' loaderCallback event listen) :
    Hears L N listen.2 checksum utterance := by
  cases h with
  | reply hresponds => exact replyArrives_of_arrives L hresponds harrives
  | log hcarries => exact logArrives_of_arrives L hcarries harrives

end

end

/-- Two log messages in each round, and one from every log statement of the sender. -/
def chatter : List RoundLog := List.replicate 6 ⟨[[104, 105, 10]], [[106, 10]]⟩

end KenningRuntime
