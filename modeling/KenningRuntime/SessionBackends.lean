import KenningRuntime.EmlearnInput
import KenningRuntime.InterpreterLifetime
import KenningRuntime.SessionRun

/-! Sessions over the emlearn runtime and over TFLite Micro. -/
namespace KenningRuntime
open ByteSource Transition

/-- A buffer loader takes what fits, to the start of its memory. -/
theorem saves_buf {C : ℕ} {pieces : List (List UInt8)} {l : BufLoader C}
    (h : pieces.flatten.length ≤ l.room) :
    ∃ l' : BufLoader C, (msgLoaderBuf C).saves l pieces = some l' ∧
      l'.stored = l.stored ++ pieces.flatten := by
  induction pieces generalizing l with
  | nil => exact ⟨l, rfl, by rw [List.flatten_nil, List.append_nil]⟩
  | cons piece pieces ih =>
    rw [List.flatten_cons, List.length_append, BufLoader.room] at h
    have hle := l.written_le
    have hfit : l.written+piece.length ≤ C := by omega
    have hsave : (msgLoaderBuf C).save l piece = (statusOk, l.append piece hfit) :=
      bufSave_fit l piece hfit
    have hroom : pieces.flatten.length ≤ (l.append piece hfit).room := by
      rw [BufLoader.room, BufLoader.written_append]
      omega
    obtain ⟨l', hsaves, hstored⟩ := ih hroom
    refine ⟨l', ?_, ?_⟩
    · rw [MsgLoader.saves, hsave]
      exact hsaves
    · rw [hstored, BufLoader.stored_append, List.flatten_cons, List.append_assoc]

/-- The same for a loader that saves like a buffer loader of a component. -/
theorem saves_lift {W : Type} {C : ℕ} (L : Lens W (BufLoader C)) {ldr : MsgLoader W}
    (hsave : ldr.save = ((msgLoaderBuf C).lift L).save) {pieces : List (List UInt8)} {w : W}
    {l' : BufLoader C} (h : (msgLoaderBuf C).saves (L.get w) pieces = some l') :
    ldr.saves w pieces = some (L.set w l') := by
  induction pieces generalizing w with
  | nil =>
    cases h
    rw [MsgLoader.saves, L.set_get]
  | cons piece pieces ih =>
    obtain ⟨hok, hrest⟩ := saves_cons h
    have hnext : ldr.save w piece = (statusOk, L.set w ((msgLoaderBuf C).save (L.get w) piece).2) := by
      rw [hsave, ← hok]
      rfl
    have hleft : (msgLoaderBuf C).saves
        (L.get (L.set w ((msgLoaderBuf C).save (L.get w) piece).2)) pieces = some l' := by
      rwa [L.get_set]
    rw [MsgLoader.saves, hnext]
    simp only [if_true]
    rw [ih hleft, L.set_set]

theorem take_of_stored {C : ℕ} {l : BufLoader C} {data : List UInt8} (h : l.stored = data) :
    l.mem.take data.length = data := by
  rw [← BufLoader.written_of_stored h]
  exact h

/-- What is written to the start of a buffer is there. -/
theorem Buffer.take_write {n : ℕ} (buffer : Buffer n) {data : List UInt8} (h : data.length ≤ n) :
    (buffer.write 0 data).bytes.take data.length = data := by
  rw [buffer.bytes_write h, List.take_left]

/-! ### The emlearn runtime -/

/-- The model that is compiled in computes `f`, from `n` bytes of input to `k` bytes of output, whatever
lies behind the input and whatever it computed before. -/
structure EmlearnModel.Computes {D : ℕ} {E : Type} (L : EmlearnModel D E) (n k : ℕ)
    (f : List UInt8 → List UInt8) : Prop where
  output : ∀ input output e, n ≤ input.length →
    (L.emlearnModel input output e).1.bytes.take k = f (input.take n)
  length_eq : ∀ input, input.length = n → (f input).length = k

/-- One model, whatever is received as a model. -/
def emlearnModels (n k : ℕ) (f : List UInt8 → List UInt8) : Models where
  repeatable := True
  loadable _ := True
  inputSize _ := n
  outputSize _ := k
  infer _ := f

section
variable {C D : ℕ} {E : Type} {L : EmlearnModel D E} {n k : ℕ} {f : List UInt8 → List UInt8}

/-- The loader for models takes everything and keeps nothing. -/
theorem Emlearn.takes_model (s : Emlearn C D E) (data : List UInt8) :
    (Emlearn.msgLoaderModel : MsgLoader (Emlearn C D E)).Takes s data fun s' => s' = s := by
  refine ⟨rfl, fun pieces _ => ⟨s, ?_, rfl⟩⟩
  have hall (pieces : List (List UInt8)) :
      (Emlearn.msgLoaderModel : MsgLoader (Emlearn C D E)).saves s pieces = some s := by
    induction pieces with
    | nil => rfl
    | cons piece pieces ih => exact ih
  exact hall pieces

theorem Emlearn.takes_input (s : Emlearn C D E) {data : List UInt8} (h : data.length ≤ C) :
    (Emlearn.msgLoaderInput : MsgLoader (Emlearn C D E)).Takes s data fun s' =>
      s'.input.written = data.length ∧ s'.input.mem.take data.length = data ∧
        s'.ldrTablePrepared = s.ldrTablePrepared := by
  refine ⟨rfl, fun pieces hpieces => ?_⟩
  have hroom : pieces.flatten.length ≤ (bufReset s.input).2.room := by
    rw [BufLoader.room, bufReset_written, hpieces]
    exact h
  obtain ⟨l, hsaves, hstored⟩ := saves_buf hroom
  rw [bufReset_stored, List.nil_append, hpieces] at hstored
  refine ⟨_, saves_lift Emlearn.inputLens rfl hsaves, ?_⟩
  exact ⟨BufLoader.written_of_stored hstored, take_of_stored hstored, rfl⟩

/-- An inference on an input, with anything behind it in the memory. -/
theorem Emlearn.runtimeRunModelBench_computes (hL : L.Computes n k f) (hn : n ≤ C) {s : Emlearn C D E}
    {input : List UInt8} (hinput : s.input.mem.take n = input) :
    (Emlearn.runtimeRunModelBench L s).1 = statusOk ∧
      (Emlearn.runtimeRunModelBench L s).2.input = s.input ∧
      (Emlearn.runtimeRunModelBench L s).2.ldrTablePrepared = s.ldrTablePrepared ∧
      (Emlearn.runtimeRunModelBench L s).2.output.bytes.take k = f input := by
  refine ⟨rfl, rfl, rfl, ?_⟩
  have hlen : n ≤ s.input.mem.length := by
    rw [s.input.mem_length]
    exact hn
  rw [← hinput]
  exact hL.output s.input.mem s.output s.environment hlen

/-- The runtime evaluates its model. -/
def Emlearn.evaluates (hL : L.Computes n k f) (hn : n ≤ C) (hC : C < 2^32) :
    Evaluates (emlearnBuild L : Build (Emlearn C D E)).runtime (emlearnModels n k f) where
  Ready s := s.ldrTablePrepared = true
  Loaded _ s := s.ldrTablePrepared = true
  Fed _ input s := s.ldrTablePrepared = true ∧ s.input.mem.take n = input
  Done _ input s := (s.ldrTablePrepared = true ∧ s.input.mem.take n = input) ∧
    s.output.bytes.take k = f input
  ready_of_loaded _ _ h := h
  loaded_of_fed _ _ _ h := h.1
  loaded_of_done _ _ _ h := h.1.1
  modelLoader s h := by
    refine ⟨Emlearn.msgLoaderModel, if_pos h, fun weights _ => ?_⟩
    obtain ⟨hreset, htakes⟩ := Emlearn.takes_model s weights
    refine ⟨hreset, fun pieces hpieces => ?_⟩
    obtain ⟨s', hsaves, rfl⟩ := htakes pieces hpieces
    exact ⟨s', hsaves, h, s', rfl, h⟩
  dataLoader _ s h := by
    refine ⟨Emlearn.msgLoaderInput, if_pos h, fun input hlen => ?_⟩
    have hlen : input.length = n := hlen
    obtain ⟨hreset, htakes⟩ := Emlearn.takes_input s (hlen.trans_le hn)
    refine ⟨hreset, fun pieces hpieces => ?_⟩
    obtain ⟨s', hsaves, hwritten, hmem, hprepared⟩ := htakes pieces hpieces
    rw [hlen] at hmem
    refine ⟨s', hsaves, ?_, s', rfl, hprepared.trans h, hmem⟩
    show s'.input.written%2^32 = input.length
    rw [hwritten]
    exact Nat.mod_eq_of_lt (by omega)
  runtimeRunModelBench _ input s h := by
    have hfed : s.ldrTablePrepared = true ∧ s.input.mem.take n = input := h.elim id fun h => h.2.1
    obtain ⟨hstatus, hkept, hprepared, houtput⟩ :=
      Emlearn.runtimeRunModelBench_computes hL hn hfed.2
    refine ⟨_, Prod.ext hstatus rfl, ⟨hprepared.trans hfed.1, ?_⟩, houtput⟩
    show (Emlearn.runtimeRunModelBench L s).2.input.mem.take n = input
    rw [hkept]
    exact hfed.2
  runtimeGetModelOutput _ input s h := by
    intro spec hspec size buffer hsize
    refine ⟨_, s, rfl, h, ?_⟩
    have hlen : input.length = n := by
      rw [← h.1.2, List.length_take, s.input.mem_length]
      exact min_eq_left hn
    have hk : (f input).length = k := hL.length_eq input hlen
    -- The output buffer holds the output, so nothing behind it is read.
    have hle : k ≤ D := by
      rw [← h.2, List.length_take, s.output.length_eq] at hk
      exact min_eq_left_iff.mp hk
    have hdata : Emlearn.readOutput L s (Emlearn.outputSize spec) = f input := by
      rw [Emlearn.outputSize, hspec]
      exact (Emlearn.readOutput_le L hle).trans h.2
    show (buffer.write 0 _).bytes.take k = f input
    rw [hdata, ← hk]
    exact buffer.take_write (hk.trans_le hsize)

variable {cfg : Config}

/-- From the start of the server on, over any session of a client that knows its model: the main loop
takes the requests one by one, however they are cut into messages, and what it puts on the line are the
replies of the session, with the output of `f` on the input that was sent last. -/
theorem emlearn_session (hL : L.Computes n k f) (hn : n ≤ C) (hC : C < 2^32) (environment : E)
    {asks : List Ask}
    (hasks : (⟨false, .initialized⟩ : Session).AdmitsAll (emlearnModels n k f) cfg asks)
    {W : Type} {C' : MessageType → ℕ} {client : ∀ t, Lens W (BufLoader (C' t))}
    {loaderCallback : W → MessageType → Option (MsgLoader W)}
    (hclient : ∀ w t, loaderCallback w t = some ((msgLoaderBuf (C' t)).lift (client t)) ∧
      cfg.responsePayloadSize ≤ C' t) (cfg' : Config) :
    ∃ server sent,
      Reaches (mainRound (emlearnBuild L))
        ⟨(initServer (emlearnBuild L) statusOk (bootServer cfg (Emlearn.boot C D hC environment))).2,
          bytes (asks.flatMap fun ask => wires ask.messages), idleTx []⟩
        (asks.map Ask.checksum) ⟨server, [], idleTx sent⟩ ∧
      ReadsReplies cfg' client loaderCallback sent
        ((⟨false, .initialized⟩ : Session).replies (emlearnModels n k f) asks) := by
  have hserves : Serves (Emlearn.evaluates hL hn hC) ⟨false, .initialized⟩
      (initServer (emlearnBuild L) statusOk (bootServer cfg (Emlearn.boot C D hC environment))).2 :=
    initServer_serves rfl rfl rfl
  obtain ⟨server, responses, hreaches, -, hresponds⟩ := reaches_session hserves hasks [] []
  rw [List.append_nil, List.nil_append] at hreaches
  exact ⟨server, sessionWire cfg responses, hreaches, responds_reads client hclient cfg' hresponds⟩

end

/-! ### The runtime over TFLite Micro -/

/-- The library interprets models that fit into `C` bytes: what holds of its state after each call of
it, when the memory of the model starts with the weights, and the input is copied in piece by piece. -/
structure TfliteLibrary.Interprets {E : Type} (L : TfliteLibrary E) (C : ℕ) (M : Models) where
  Constructed : List UInt8 → E → Prop
  Filled : List UInt8 → List UInt8 → E → Prop
  Invoked : List UInt8 → List UInt8 → E → Prop
  loadable_le : ∀ weights, M.loadable weights → weights.length ≤ C
  version : ∀ weights mem, M.loadable weights → mem.take weights.length = weights →
    L.version mem = L.schemaVersion
  construct : ∀ weights mem e, M.loadable weights → mem.take weights.length = weights →
    Constructed weights (L.construct mem weights.length e)
  allocateTensors : ∀ weights e, Constructed weights e → ∃ e', L.allocateTensors e = (true, e') ∧
    Filled weights [] e' ∧ L.inputBytes e' = M.inputSize weights
  saveInput : ∀ weights input src e, Filled weights input e →
    input.length+src.length ≤ M.inputSize weights →
      Filled weights (input ++ src) (L.saveInput input.length src e)
  filled_again : ∀ weights input e, Filled weights input e ∨ Invoked weights input e →
    Filled weights [] e
  invoke : ∀ weights input e,
    (Filled weights input e ∧ input.length = M.inputSize weights) ∨
        (M.repeatable ∧ Invoked weights input e) →
      Invoked weights input (L.invoke e).2
  outputData : ∀ weights input e, Invoked weights input e →
    L.outputData e = M.infer weights input ∧ (M.infer weights input).length = M.outputSize weights
  inputSize_lt : ∀ weights, M.inputSize weights < 2^32
  cycles_filled : ∀ weights input e, Filled weights input e → Filled weights input (L.cycles e).2
  cycles_invoked : ∀ weights input e, Invoked weights input e → Invoked weights input (L.cycles e).2

section
variable {C : ℕ} {E : Type} {L : TfliteLibrary E} {M : Models}

/-- A model that fits is in the memory of the loader, whatever was there before. -/
theorem Tflite.takes_model (s : Tflite C E) {data : List UInt8} (h : data.length ≤ C) :
    (Tflite.msgLoaderModel L : MsgLoader (Tflite C E)).Takes s data fun s' =>
      s'.buffer.written = data.length ∧ s'.buffer.mem.take data.length = data ∧
        s'.ldrTablePrepared = s.ldrTablePrepared := by
  have hreset : (Tflite.tfliteResetBuf L s).1 = statusOk ∧
      (Tflite.tfliteResetBuf L s).2.buffer = (bufReset s.buffer).2 ∧
      (Tflite.tfliteResetBuf L s).2.ldrTablePrepared = s.ldrTablePrepared := by
    rw [Tflite.tfliteResetBuf]
    split
    · exact ⟨rfl, rfl, rfl⟩
    · exact ⟨rfl, rfl, rfl⟩
  obtain ⟨hstatus, hbuffer, hprepared⟩ := hreset
  refine ⟨hstatus, fun pieces hpieces => ?_⟩
  have hroom : pieces.flatten.length ≤ (bufReset s.buffer).2.room := by
    rw [BufLoader.room, bufReset_written, hpieces]
    exact h
  obtain ⟨l, hsaves, hstored⟩ := saves_buf hroom
  rw [bufReset_stored, List.nil_append, hpieces] at hstored
  rw [← hbuffer] at hsaves
  have hsave : (Tflite.msgLoaderModel L : MsgLoader (Tflite C E)).save =
    ((msgLoaderBuf C).lift Tflite.bufferLens).save := rfl
  refine ⟨_, saves_lift Tflite.bufferLens hsave hsaves, ?_⟩
  exact ⟨BufLoader.written_of_stored hstored, take_of_stored hstored, hprepared⟩

/-- Pieces of an input go behind the ones that came before. The induction is on the pieces; the bytes
that are in the tensor already are the invariant. -/
theorem Tflite.saves_input (I : L.Interprets C M) {weights input : List UInt8}
    {pieces : List (List UInt8)} {s : Tflite C E} (hfilled : I.Filled weights input s.library)
    (hmax : s.inputMaxSize = M.inputSize weights) (hwritten : s.inputWritten = input.length)
    (hfit : input.length+pieces.flatten.length ≤ M.inputSize weights) :
    ∃ s', (Tflite.msgLoaderInput L : MsgLoader (Tflite C E)).saves s pieces = some s' ∧
      I.Filled weights (input ++ pieces.flatten) s'.library ∧
      s'.inputMaxSize = M.inputSize weights ∧ s'.inputWritten = input.length+pieces.flatten.length ∧
      s'.ldrTablePrepared = s.ldrTablePrepared := by
  -- The induction is on the pieces; what was saved before is part of the input.
  induction pieces generalizing input s with
  | nil =>
    rw [List.flatten_nil, List.append_nil, List.length_nil, Nat.add_zero]
    exact ⟨s, rfl, hfilled, hmax, hwritten, rfl⟩
  | cons piece pieces ih =>
    rw [List.flatten_cons, List.length_append] at hfit
    let next : Tflite C E := {s with
      inputWritten := s.inputWritten+piece.length
      library := L.saveInput s.inputWritten piece s.library }
    have hsave : (Tflite.msgLoaderInput L : MsgLoader (Tflite C E)).save s piece = (statusOk, next) := by
      have hroom : ¬ s.inputWritten+piece.length > s.inputMaxSize := by omega
      exact if_neg hroom
    have hnext : I.Filled weights (input ++ piece) next.library := by
      show I.Filled weights (input ++ piece) (L.saveInput s.inputWritten piece s.library)
      rw [hwritten]
      exact I.saveInput weights input piece s.library hfilled (by omega)
    have hcount : next.inputWritten = (input ++ piece).length := by
      rw [List.length_append, ← hwritten]
    obtain ⟨s', hsaves, hall, hmax', hwritten', hprepared⟩ := ih hnext hmax hcount (by
      rw [List.length_append]
      omega)
    refine ⟨s', ?_, ?_, hmax', ?_, hprepared⟩
    · rw [MsgLoader.saves, hsave]
      exact hsaves
    · rwa [List.flatten_cons, ← List.append_assoc]
    · rw [hwritten', List.length_append, List.flatten_cons, List.length_append]
      omega

/-- The weights in the memory of the loader are loaded, on the first start and later. -/
theorem Tflite.runtimeInitWeights_loads (I : L.Interprets C M) {weights : List UInt8}
    (hloadable : M.loadable weights) {s : Tflite C E} (hwritten : s.buffer.written = weights.length)
    (hmem : s.buffer.mem.take weights.length = weights) :
    ∃ s', Tflite.runtimeInitWeights L s = (statusOk, s') ∧ I.Filled weights [] s'.library ∧
      s'.inputMaxSize = M.inputSize weights ∧ s'.ldrTablePrepared = s.ldrTablePrepared := by
  have hstart : (s.startInterpreter L).ldrTablePrepared = s.ldrTablePrepared ∧
      ∃ e, (s.startInterpreter L).library = L.construct s.buffer.mem s.buffer.written e := by
    rw [Tflite.startInterpreter]
    split <;> split <;> exact ⟨rfl, _, rfl⟩
  obtain ⟨hprepared, e, hlibrary⟩ := hstart
  rw [hwritten] at hlibrary
  have hconstructed : I.Constructed weights (s.startInterpreter L).library := by
    rw [hlibrary]
    exact I.construct weights s.buffer.mem e hloadable hmem
  obtain ⟨e', hallocate, hfilled, hsize⟩ := I.allocateTensors weights _ hconstructed
  have hallocate : L.allocateTensors ((s.startInterpreter L).happened (.use .interpreter)).library =
      (true, e') := hallocate
  rw [Tflite.runtimeInitWeights, I.version weights s.buffer.mem hloadable hmem,
    if_neg (not_not_intro rfl)]
  simp only [hallocate]
  exact ⟨_, rfl, hfilled, hsize, hprepared⟩

/-- The clock is read, the interpreter invoked, and the clock read again. -/
theorem Tflite.runtimeRunModelBench_library (L : TfliteLibrary E) (s : Tflite C E) :
    (Tflite.runtimeRunModelBench L s).1 = statusOk ∧
      (Tflite.runtimeRunModelBench L s).2.library =
        (L.cycles (L.invoke (L.cycles s.library).2).2).2 ∧
      (Tflite.runtimeRunModelBench L s).2.inputMaxSize = s.inputMaxSize ∧
      (Tflite.runtimeRunModelBench L s).2.ldrTablePrepared = s.ldrTablePrepared :=
  ⟨rfl, rfl, rfl, rfl⟩

/-- The runtime evaluates the models that the library interprets. -/
def Tflite.evaluates (I : L.Interprets C M) :
    Evaluates (tfliteBuild L : Build (Tflite C E)).runtime M where
  Ready s := s.ldrTablePrepared = true
  Loaded weights s := s.ldrTablePrepared = true ∧ s.inputMaxSize = M.inputSize weights ∧
    I.Filled weights [] s.library
  Fed weights input s := s.ldrTablePrepared = true ∧ s.inputMaxSize = M.inputSize weights ∧
    I.Filled weights input s.library ∧ input.length = M.inputSize weights
  Done weights input s := s.ldrTablePrepared = true ∧ s.inputMaxSize = M.inputSize weights ∧
    I.Invoked weights input s.library
  ready_of_loaded _ _ h := h.1
  loaded_of_fed weights input s h := ⟨h.1, h.2.1, I.filled_again weights input _ (Or.inl h.2.2.1)⟩
  loaded_of_done weights input s h := ⟨h.1, h.2.1, I.filled_again weights input _ (Or.inr h.2.2)⟩
  modelLoader s h := by
    refine ⟨Tflite.msgLoaderModel L, if_pos h, fun weights hloadable => ?_⟩
    obtain ⟨hreset, htakes⟩ := Tflite.takes_model s (I.loadable_le weights hloadable)
    refine ⟨hreset, fun pieces hpieces => ?_⟩
    obtain ⟨s', hsaves, hwritten, hmem, hprepared⟩ := htakes pieces hpieces
    obtain ⟨s'', hinit, hfilled, hmax, hprepared'⟩ :=
      Tflite.runtimeInitWeights_loads I hloadable hwritten hmem
    have hready : s'.ldrTablePrepared = true := hprepared.trans h
    exact ⟨s', hsaves, hready, s'', hinit, hprepared'.trans hready, hmax, hfilled⟩
  dataLoader weights s h := by
    refine ⟨Tflite.msgLoaderInput L, if_pos h.1, fun input hlen => ⟨rfl, fun pieces hpieces => ?_⟩⟩
    have hfit : ([] : List UInt8).length+pieces.flatten.length ≤ M.inputSize weights := by
      rw [hpieces, List.length_nil, hlen, Nat.zero_add]
    have hfilled : I.Filled weights [] ({s with inputWritten := 0} : Tflite C E).library := h.2.2
    obtain ⟨s', hsaves, hfilled', hmax, hwritten, hprepared⟩ :=
      Tflite.saves_input I hfilled h.2.1 rfl hfit
    rw [List.nil_append, hpieces] at hfilled'
    rw [List.length_nil, Nat.zero_add, hpieces] at hwritten
    refine ⟨s', hsaves, ?_, s', rfl, hprepared.trans h.1, hmax, hfilled', hlen⟩
    show s'.inputWritten%2^32 = input.length
    rw [hwritten, hlen]
    exact Nat.mod_eq_of_lt (I.inputSize_lt weights)
  runtimeRunModelBench weights input s h := by
    obtain ⟨hstatus, hlibrary, hmax, hprepared⟩ := Tflite.runtimeRunModelBench_library L s
    have hkept : s.ldrTablePrepared = true ∧ s.inputMaxSize = M.inputSize weights :=
      h.elim (fun h => ⟨h.1, h.2.1⟩) fun h => ⟨h.2.1, h.2.2.1⟩
    have hbefore : (I.Filled weights input (L.cycles s.library).2 ∧
        input.length = M.inputSize weights) ∨
          (M.repeatable ∧ I.Invoked weights input (L.cycles s.library).2) := by
      rcases h with h | h
      · exact Or.inl ⟨I.cycles_filled weights input _ h.2.2.1, h.2.2.2⟩
      · exact Or.inr ⟨h.1, I.cycles_invoked weights input _ h.2.2.2⟩
    have hinvoked := I.cycles_invoked weights input _ (I.invoke weights input _ hbefore)
    rw [← hlibrary] at hinvoked
    exact ⟨_, Prod.ext hstatus rfl, hprepared.trans hkept.1, hmax.trans hkept.2, hinvoked⟩
  runtimeGetModelOutput weights input s h := by
    intro spec _ size buffer hsize
    obtain ⟨hdata, hlen⟩ := I.outputData weights input s.library h.2.2
    refine ⟨_, s.happened (.use s.pointee), rfl, h, ?_⟩
    show (buffer.write 0 (L.outputData s.library)).bytes.take (M.outputSize weights) = _
    rw [hdata, ← hlen]
    exact buffer.take_write (hlen.trans_le hsize)

variable {cfg : Config}

/-- The same with TFLite Micro, where the output is that of the model that was loaded last: over any
session of a client that knows its model, the replies on the line are those of the session. -/
theorem tflite_session (I : L.Interprets C M) (hC : C < 2^32) (library : E) {asks : List Ask}
    (hasks : (⟨false, .initialized⟩ : Session).AdmitsAll M cfg asks)
    {W : Type} {C' : MessageType → ℕ} {client : ∀ t, Lens W (BufLoader (C' t))}
    {loaderCallback : W → MessageType → Option (MsgLoader W)}
    (hclient : ∀ w t, loaderCallback w t = some ((msgLoaderBuf (C' t)).lift (client t)) ∧
      cfg.responsePayloadSize ≤ C' t) (cfg' : Config) :
    ∃ server sent,
      Reaches (mainRound (tfliteBuild L))
        ⟨(initServer (tfliteBuild L) statusOk (bootServer cfg (Tflite.boot C hC library))).2,
          bytes (asks.flatMap fun ask => wires ask.messages), idleTx []⟩
        (asks.map Ask.checksum) ⟨server, [], idleTx sent⟩ ∧
      ReadsReplies cfg' client loaderCallback sent
        ((⟨false, .initialized⟩ : Session).replies M asks) := by
  have hserves : Serves (Tflite.evaluates I) ⟨false, .initialized⟩
      (initServer (tfliteBuild L) statusOk (bootServer cfg (Tflite.boot C hC library))).2 :=
    initServer_serves rfl rfl rfl
  obtain ⟨server, responses, hreaches, -, hresponds⟩ := reaches_session hserves hasks [] []
  rw [List.append_nil, List.nil_append] at hreaches
  exact ⟨server, sessionWire cfg responses, hreaches, responds_reads client hclient cfg' hresponds⟩

end

/-! A session over a model of one byte: the client connects, loads everything and asks for the output. -/

theorem firstByte_computes : firstByte.Computes 1 1 (List.take 1) := by
  refine ⟨?_, ?_⟩
  · intro input output e hlen
    have hone : (input.take 1).length = 1 := by
      rw [List.length_take]
      omega
    have hwrite := output.take_write hone.le
    rw [hone] at hwrite
    rw [List.take_take, min_self]
    exact hwrite
  · intro input hlen
    rw [List.length_take]
    omega

theorem length_noPayload :
    ([] : List UInt8).length = if false = true then (0 : BitVec 32).toNat else 0 := rfl

/-- A request without payload, with the flag `success` as given. -/
def plainMessage (t : MessageType) (success : Bool) : Message where
  hdr := {
    messageType := BitVec.ofNat 38 t.number
    flowControlFlags := flowControlRequest
    checksum := 0
    flags := ⟨success, false, true, false, true, true, false, false, 0, 0⟩
    payloadSize := 0 }
  payload := []
  payload_length := length_noPayload

theorem carried_requestMessage {request : Request} {data : List UInt8} (h : data.length < 2^32)
    (hpayload : request.payload = some data) :
    request.Carried true [requestMessage request.messageType data h] := by
  have htype : (requestMessage request.messageType data h).hdr.messageType? =
      some request.messageType := by
    cases request <;> rfl
  refine ⟨htype, rfl, rfl, ?_, ?_⟩
  · cases request with
    | connect => cases hpayload
    | disconnect => cases hpayload
    | _ => trivial
  · rw [hpayload]
    exact ⟨rfl, .last rfl, List.append_nil data⟩

theorem carried_plainMessage {request : Request} {success : Bool} (hpayload : request.payload = none)
    (hpings : request.Pings (plainMessage request.messageType success).hdr.flags) :
    request.Carried true [plainMessage request.messageType success] := by
  have htype : (plainMessage request.messageType success).hdr.messageType? =
      some request.messageType := by
    cases request <;> rfl
  refine ⟨htype, rfl, rfl, hpings, ?_⟩
  rw [hpayload]
  exact ⟨rfl, rfl⟩

def askConnect : Ask :=
  ⟨.connect, true, [plainMessage .ping true], fun _ => 0, carried_plainMessage rfl ⟨rfl, rfl⟩⟩

def askSpec : Ask :=
  ⟨.loadSpec oneByteSpec, true, [iospecRequest], fun _ => 0, carried_requestMessage _ rfl⟩

def askModel (weights : List UInt8) (h : weights.length < 2^32) : Ask :=
  ⟨.loadModel weights, true, [requestMessage .model weights h], fun _ => 0,
    carried_requestMessage h rfl⟩

theorem length_singleton_lt (b : UInt8) : [b].length < 2^32 := by
  rw [List.length_singleton]
  decide

def askData (b : UInt8) : Ask :=
  ⟨.loadData [b], true, [requestMessage .data [b] (length_singleton_lt b)], fun _ => 0,
    carried_requestMessage (length_singleton_lt b) rfl⟩

def askProcess : Ask :=
  ⟨.process, true, [plainMessage .process false], fun _ => 0, carried_plainMessage rfl trivial⟩

def askOutput : Ask :=
  ⟨.output, true, [plainMessage .output false], fun _ => 0, carried_plainMessage rfl trivial⟩

theorem length_noWeights : ([] : List UInt8).length < 2^32 := by decide

def oneByteAsks : List Ask :=
  [askConnect, askSpec, askModel [] length_noWeights, askData 7, askProcess, askOutput]

theorem oneByteSpec_describes :
    Session.Describes smallConfig (emlearnModels 1 1 (List.take 1)) oneByteSpec [] where
  input := by decide +kernel
  output := by decide +kernel
  fits := by decide

theorem oneByteAsks_admitted :
    (⟨false, .initialized⟩ : Session).AdmitsAll (emlearnModels 1 1 (List.take 1)) smallConfig
      oneByteAsks := by
  refine ⟨trivial, ⟨length_oneByteSpec, oneByteSpec_valid⟩, ⟨trivial, ?_⟩,
    ⟨oneByteSpec, [], rfl, rfl⟩, Or.inl trivial, ⟨oneByteSpec, [], [7], rfl⟩, trivial⟩
  intro spec hspec
  cases hspec
  exact oneByteSpec_describes

theorem emlearn_session_oneByte :
    ∃ server sent,
      Reaches (mainRound (emlearnBuild firstByte))
        ⟨(initServer (emlearnBuild firstByte) statusOk
            (bootServer smallConfig (Emlearn.boot 4 1 (by decide) ()))).2,
          bytes (oneByteAsks.flatMap fun ask => wires ask.messages), idleTx []⟩
        (oneByteAsks.map Ask.checksum) ⟨server, [], idleTx sent⟩ ∧
      ReadsReplies narrowConfig (fun _ => Lens.whole (BufLoader 16)) (oneLoader 16) sent
        ((⟨false, .initialized⟩ : Session).replies (emlearnModels 1 1 (List.take 1)) oneByteAsks) :=
  emlearn_session firstByte_computes (by decide) (by decide) () oneByteAsks_admitted
    (fun _ _ => ⟨rfl, by decide⟩) narrowConfig

/-! The same with weights: a model that adds a byte of its own to its input. -/

/-- The state of an interpreter for it, with the tensors. -/
structure Adder where
  weights : List UInt8
  input : List UInt8
  output : List UInt8

/-- A library for models of one byte behind the version. The input is gone after an inference. -/
def addingLibrary : TfliteLibrary Adder where
  schemaVersion := 3
  version := flatbufferVersion
  construct mem size e := {e with weights := mem.take size}
  destroy e := {e with weights := []}
  allocateTensors e := (true, {e with input := [], output := []})
  inputBytes _ := 1
  saveInput off src e := {e with input := e.input.take off ++ src}
  invoke e := (true, {e with
    input := []
    output := (e.input.take 1).map fun b => b+e.weights.getD 20 0 })
  arenaUsedBytes _ := 0
  outputData e := e.output
  cycles e := (0, e)
  cycToNs cycles := cycles

def addingModels : Models where
  repeatable := False
  loadable weights := ∃ b, weights = versionThree ++ [b]
  inputSize _ := 1
  outputSize _ := 1
  infer weights input := input.map fun b => b+weights.getD 20 0

theorem flatbufferVersion_adding {weights mem : List UInt8} (h : addingModels.loadable weights)
    (hmem : mem.take weights.length = weights) : flatbufferVersion mem = 3 := by
  obtain ⟨b, rfl⟩ := h
  have hversion : mem.take versionThree.length = versionThree := by
    have hcut := congrArg (List.take versionThree.length) hmem
    rwa [List.take_take, List.length_append, min_eq_left (Nat.le_add_right _ _),
      List.take_left' rfl] at hcut
  have hsplice : Memory.splice mem 0 versionThree = mem := by
    rw [Memory.splice, List.take_zero, List.nil_append, Nat.zero_add]
    nth_rewrite 1 [← hversion]
    exact List.take_append_drop _ mem
  rw [← hsplice]
  exact version_versionThree mem

/-- What is copied behind the input that is there already goes behind it. -/
def addingLibrary_interprets : addingLibrary.Interprets 64 addingModels where
  Constructed weights e := e.weights = weights
  Filled weights input e := e.weights = weights ∧ e.input.take input.length = input
  Invoked weights input e := e.weights = weights ∧ input.length = 1 ∧
    e.output = addingModels.infer weights input
  loadable_le weights h := by
    obtain ⟨b, rfl⟩ := h
    exact (by decide : 21 ≤ 64)
  version weights mem h hmem := flatbufferVersion_adding h hmem
  construct weights mem e _ hmem := hmem
  allocateTensors weights e h := ⟨_, rfl, ⟨h, rfl⟩, rfl⟩
  saveInput weights input src e h _ := by
    refine ⟨h.1, ?_⟩
    show (e.input.take input.length ++ src).take (input ++ src).length = input ++ src
    rw [h.2]
    exact List.take_of_length_le le_rfl
  filled_again weights input e h := ⟨h.elim And.left And.left, rfl⟩
  invoke weights input e h := by
    obtain ⟨⟨hweights, hinput⟩, hlen⟩ := h.resolve_right fun h => h.1
    have hlen : input.length = 1 := hlen
    rw [hlen] at hinput
    refine ⟨hweights, hlen, ?_⟩
    show (e.input.take 1).map (fun b => b+e.weights.getD 20 0) = _
    rw [hinput, hweights]
    rfl
  outputData weights input e h := ⟨h.2.2, by
    rw [addingModels, List.length_map]
    exact h.2.1⟩
  inputSize_lt _ := (by decide : 1 < 2^32)
  cycles_filled _ _ _ h := h
  cycles_invoked _ _ _ h := h

theorem length_addingWeights : (versionThree ++ [5]).length < 2^32 := by decide

/-- Two inputs, one after the other, and the outputs of the model for them. -/
def addingAsks : List Ask :=
  [askSpec, askModel (versionThree ++ [5]) length_addingWeights, askData 7, askProcess, askOutput,
    askData 8, askProcess, askOutput]

theorem addingAsks_admitted :
    (⟨false, .initialized⟩ : Session).AdmitsAll addingModels smallConfig addingAsks := by
  have hdescribes : Session.Describes smallConfig addingModels oneByteSpec (versionThree ++ [5]) :=
    ⟨oneByteSpec_describes.input, oneByteSpec_describes.output, oneByteSpec_describes.fits⟩
  refine ⟨⟨length_oneByteSpec, oneByteSpec_valid⟩, ⟨⟨5, rfl⟩, ?_⟩, ⟨_, _, rfl, rfl⟩, Or.inr ?_,
    ⟨_, _, _, rfl⟩, ⟨_, _, rfl, rfl⟩, Or.inr ?_, ⟨_, _, _, rfl⟩, trivial⟩
  · intro spec hspec
    cases hspec
    exact hdescribes
  · intro spec weights input hstage
    cases hstage
  · intro spec weights input hstage
    cases hstage

theorem tflite_session_adding :
    ∃ server sent,
      Reaches (mainRound (tfliteBuild addingLibrary))
        ⟨(initServer (tfliteBuild addingLibrary) statusOk
            (bootServer smallConfig (Tflite.boot 64 (by decide) ⟨[], [], []⟩))).2,
          bytes (addingAsks.flatMap fun ask => wires ask.messages), idleTx []⟩
        (addingAsks.map Ask.checksum) ⟨server, [], idleTx sent⟩ ∧
      ReadsReplies narrowConfig (fun _ => Lens.whole (BufLoader 16)) (oneLoader 16) sent
        ((⟨false, .initialized⟩ : Session).replies addingModels addingAsks) :=
  tflite_session addingLibrary_interprets (by decide) ⟨[], [], []⟩ addingAsks_admitted
    (fun _ _ => ⟨rfl, by decide⟩) narrowConfig

/-- What the client reads. -/
example : ((⟨false, .initialized⟩ : Session).replies addingModels addingAsks).map
    (fun reply => (reply.1, reply.2.1.success, reply.2.1.payload)) =
    [(.iospec, true, []), (.model, true, []), (.data, true, []), (.process, true, []),
      (.output, true, [12]), (.data, true, []), (.process, true, []), (.output, true, [13])] := rfl

end KenningRuntime
