import KenningRuntime.ExtensionLifetime
import KenningRuntime.ImageReception
import KenningRuntime.SessionBackends

/-! Sessions with `CONFIG_LLEXT`: the client loads a runtime, and may load another one at any time. With
each of them the server does what it would do if that runtime was built in. -/
namespace KenningRuntime
open ByteSource LittleEndian Memory Transition

/-! ### What the client sees -/

/-- What a client asks a server for that has no runtime of its own. -/
inductive HostRequest where
  | loadRuntime (image : List UInt8)
  | toRuntime (request : Request)

/-- The image of the runtime that was loaded last, and the session with it. -/
structure Host where
  image : Option (List UInt8)
  session : Session

/-- No runtime, and so no model. -/
def noModels : Models := ⟨False, fun _ => False, fun _ => 0, fun _ => 0, fun _ _ => []⟩

namespace Host

variable (Ms : List UInt8 → Models)

/-- The models that can be evaluated now. -/
def models (host : Host) : Models := host.image.elim noModels Ms

/-- A new runtime starts without a model, and the client stays connected. -/
def next (host : Host) : HostRequest → Host × Reply
  | .loadRuntime image => (⟨some image, {host.session with stage := .initialized}⟩, ⟨true, []⟩)
  | .toRuntime request =>
    match host.session.next (host.models Ms) request with
    | (session, reply) => ({host with session}, reply)

/-- A runtime can be loaded at any time. Before the first one a client can connect and disconnect. -/
def Admits (images : List UInt8 → Prop) (cfg : Config) (host : Host) : HostRequest → Prop
  | .loadRuntime image => images image
  | .toRuntime request =>
    match host.image with
    | none => request = .connect ∨ request = .disconnect
    | some image => host.session.Admits (Ms image) cfg request

end Host

def HostRequest.messageType : HostRequest → MessageType
  | .loadRuntime _ => .runtime
  | .toRuntime request => request.messageType

/-- The messages carry the request. An image follows its size, which is not cut into pieces. -/
def HostRequest.Carried (asked : Bool) : HostRequest → List Message → Prop
  | .toRuntime request, messages => request.Carried asked messages
  | .loadRuntime _, [] => False
  | .loadRuntime image, m :: ms =>
    m.hdr.messageType? = some .runtime ∧ m.hdr.flags.first = true ∧
      m.hdr.flowControlFlags = (if asked then flowControlRequest else flowControlTransmission) ∧
      m.hdr.flags.hasPayload = true ∧ Series m ms ∧
      payloads (m :: ms) = toBytes Llext.runtimeSizeFieldSize image.length ++ image ∧
      Llext.runtimeSizeFieldSize ≤ m.payload.length

/-- A request as it is sent, with what is on the stack of the server when it responds. -/
structure HostAsk where
  request : HostRequest
  asked : Bool
  messages : List Message
  checksum : ℕ → BitVec 8
  carried : request.Carried asked messages

namespace Host

variable (Ms : List UInt8 → Models)

/-- Every request is one that the client may send when it is its turn. -/
def AdmitsAll (images : List UInt8 → Prop) (cfg : Config) : Host → List HostAsk → Prop
  | _, [] => True
  | host, ask :: asks =>
    host.Admits Ms images cfg ask.request ∧ (host.next Ms ask.request).1.AdmitsAll images cfg asks

/-- What is answered, one after the other. -/
def replies : Host → List HostAsk → List (MessageType × Reply × (ℕ → BitVec 8))
  | _, [] => []
  | host, ask :: asks =>
    (if ask.asked then [(ask.request.messageType, (host.next Ms ask.request).2, ask.checksum)] else []) ++
      (host.next Ms ask.request).1.replies asks

end Host

/-! ### What Zephyr and the extensions have to do -/

/-- Zephyr finds memory for each of the images, one at a time, loads it and brings it up, finds all
functions in it, and gives everything back when it is unloaded. -/
structure LlextApi.Loads {Z : Type} (A : LlextApi Z) (images : List UInt8 → Prop) where
  Vacant : Z → Prop
  Reserved : Z → Prop
  Running : Z → Prop
  length_lt : ∀ image, images image → image.length < 2^32
  kHeapAlignedAlloc : ∀ image z, images image → Vacant z →
    ∃ mem z', A.kHeapAlignedAlloc image.length z = (some mem, z') ∧ Reserved z'
  llextLoad : ∀ image z, images image → Reserved z →
    ∃ z' z'', A.llextLoad (some image) image.length z = (statusOk, z') ∧
      A.llextBringup z' = (statusOk, z'') ∧ Running z''
  llextFindSym : ∀ symbol z, Running z → A.llextFindSym symbol z = true
  release : ∀ z, Running z →
    ∃ z' z'', A.llextTeardown (A.kHeapFree z) = (statusOk, z') ∧ A.llextUnload z' = (statusOk, z'') ∧
      Vacant z''

/-- The extensions are made from the sources of the runtime `R`. -/
structure Extension.MadeFrom {E : Type} (X : Extension E) (R : RuntimeWrapper E) : Prop where
  runtimeInit : ∀ e, R.runtimeInit e = ((X.runtimeInit e).1, (X.runtimeInit e).2.2)
  /-- The loaders are registered on the way to success. -/
  registers : ∀ e, (X.runtimeInit e).1 = statusOk → (X.runtimeInit e).2.1 = true
  runtimeInitWeights : X.runtimeInitWeights = R.runtimeInitWeights
  runtimeInitInput : X.runtimeInitInput = R.runtimeInitInput
  runtimeRunModelBench : X.runtimeRunModelBench = R.runtimeRunModelBench
  runtimeGetModelOutput : ∀ (spec : List UInt8) {n : ℕ} (buffer : Buffer n) e,
    X.runtimeGetModelOutput spec buffer e = R.runtimeGetModelOutput spec buffer e
  modelLoader : ∀ e ldr, R.modelLoader e = some ldr → X.msgLoaderModel = ldr
  dataLoader : ∀ e ldr, R.dataLoader e = some ldr → X.msgLoaderInput = ldr

/-- The runtime in each of the images evaluates models when it is initialized. -/
structure Extension.Provides {E : Type} (X : Extension E) (images : List UInt8 → Prop)
    (Ms : List UInt8 → Models) where
  runtime : RuntimeWrapper E
  madeFrom : X.MadeFrom runtime
  evaluates : ∀ image, Evaluates runtime (Ms image)
  runtimeInit : ∀ image, images image →
    ∃ e, runtime.runtimeInit (X.load (some image) image.length) = (statusOk, e) ∧
      (evaluates image).Ready e

namespace Llext

variable {E Z : Type} {A : LlextApi Z} {X : Extension E} {images : List UInt8 → Prop}
  {Ms : List UInt8 → Models}

/-! ### An extension that is in use -/

/-- The extension is loaded, and both pointers point into it. -/
structure InUse (V : A.Loads images) (s : Llext E Z) : Prop where
  pointers : ∃ g, s.gpLlextRuntime = some g ∧ s.ldrTable = some g ∧ s.loaded = some g
  block : s.addr.isSome = true
  running : V.Running s.zephyr

/-- Nothing is loaded, and nothing is in memory. -/
structure Idle (V : A.Loads images) (s : Llext E Z) : Prop where
  addr : s.addr = none
  loaded : s.loaded = none
  vacant : V.Vacant s.zephyr

/-- What the functions of the extension leave: other data, and a longer record. -/
def moved (s : Llext E Z) (ext : E) (record : List (Lifetime.Event ℕ)) : Llext E Z :=
  {s with ext, record}

@[simp] theorem moved_ext (s : Llext E Z) (ext : E) (record : List (Lifetime.Event ℕ)) :
    (s.moved ext record).ext = ext := rfl

section
variable {V : A.Loads images} {s : Llext E Z}

theorem InUse.moved (h : InUse V s) (ext : E) (record : List (Lifetime.Event ℕ)) :
    InUse V (s.moved ext record) := ⟨h.pointers, h.block, h.running⟩

/-- Every function is found, and called. -/
theorem findPFunc_inUse {α : Type} (h : InUse V s) (symbol : RuntimeSymbol)
    (call : Llext E Z → α × Llext E Z) :
    ∃ record, findPFunc A symbol call s =
      (.ok (call (s.moved s.ext record)).1, (call (s.moved s.ext record)).2) := by
  obtain ⟨g, hg, -, -⟩ := h.pointers
  have hfound : A.llextFindSym symbol (s.happened (.use g)).zephyr = true :=
    V.llextFindSym symbol s.zephyr h.running
  refine ⟨s.record ++ [.use g], ?_⟩
  rw [findPFunc, hg]
  simp only [hfound, if_true]
  rfl

theorem callRuntime_inUse (h : InUse V s) (symbol : RuntimeSymbol) {function : E → Status × E}
    {status : Status} {e : E} (hcall : function s.ext = (status, e)) :
    ∃ record, callRuntime A symbol function s = (status, s.moved e record) := by
  obtain ⟨record, hfind⟩ := findPFunc_inUse h symbol
    fun s => ((function s.ext).1, {s with ext := (function s.ext).2})
  refine ⟨record, ?_⟩
  rw [callRuntime, hfind]
  simp only [moved_ext, hcall]
  rfl

theorem runtimeGetModelOutput_inUse {spec : List UInt8} {n : ℕ} (h : InUse V s)
    {buffer buffer' : Buffer n} {status : Status} {e : E}
    (hcall : X.runtimeGetModelOutput spec buffer s.ext = (status, buffer', e)) :
    ∃ record, runtimeGetModelOutput A X spec buffer s = (status, buffer', s.moved e record) := by
  obtain ⟨record, hfind⟩ := findPFunc_inUse h .runtimeGetModelOutput
    fun s => (((X.runtimeGetModelOutput spec buffer s.ext).1,
        (X.runtimeGetModelOutput spec buffer s.ext).2.1),
      {s with ext := (X.runtimeGetModelOutput spec buffer s.ext).2.2})
  refine ⟨record, ?_⟩
  rw [runtimeGetModelOutput, hfind]
  simp only [moved_ext, hcall]
  rfl

/-- A loader of the extension takes what it would take if it was built in. The induction is on the
pieces. -/
theorem saves_owned {ldr : MsgLoader E} (g : ℕ) {pieces : List (List UInt8)} {e : E}
    (h : ldr.saves s.ext pieces = some e) :
    ∃ record, (ownedLoader ldr g).saves s pieces = some (s.moved e record) := by
  induction pieces generalizing s with
  | nil =>
    cases h
    exact ⟨s.record, rfl⟩
  | cons piece pieces ih =>
    obtain ⟨hok, hrest⟩ := saves_cons h
    let next := s.moved (ldr.save s.ext piece).2 (s.record ++ [.use g])
    have hsave : (ownedLoader ldr g).save s piece = (statusOk, next) := by
      rw [← hok]
      rfl
    obtain ⟨record, hsaves⟩ := @ih next hrest
    refine ⟨record, ?_⟩
    rw [MsgLoader.saves, hsave]
    exact hsaves

theorem takes_owned {ldr : MsgLoader E} (g : ℕ) {data : List UInt8} {P : E → Prop}
    (h : ldr.Takes s.ext data P) :
    (ownedLoader ldr g : MsgLoader (Llext E Z)).Takes s data fun s' =>
      P s'.ext ∧ ∃ ext record, s' = s.moved ext record := by
  obtain ⟨hreset, htakes⟩ := h
  refine ⟨hreset, fun pieces hpieces => ?_⟩
  obtain ⟨e, hsaves, hP⟩ := htakes pieces hpieces
  let start := s.moved (ldr.reset s.ext).2 (s.record ++ [.use g])
  obtain ⟨record, hall⟩ := @saves_owned E Z start ldr g pieces e hsaves
  exact ⟨start.moved e record, hall, hP, e, record, rfl⟩

end

/-- Over a loaded extension, the runtime evaluates what it would evaluate if it was built in. -/
def evaluates {R : RuntimeWrapper E} {M : Models} (V : A.Loads images) (hX : X.MadeFrom R)
    (B : Evaluates R M) : Evaluates (llextBuild A X : Build (Llext E Z)).runtime M where
  Ready s := InUse V s ∧ B.Ready s.ext
  Loaded weights s := InUse V s ∧ B.Loaded weights s.ext
  Fed weights input s := InUse V s ∧ B.Fed weights input s.ext
  Done weights input s := InUse V s ∧ B.Done weights input s.ext
  ready_of_loaded weights s h := ⟨h.1, B.ready_of_loaded weights s.ext h.2⟩
  loaded_of_fed weights input s h := ⟨h.1, B.loaded_of_fed weights input s.ext h.2⟩
  loaded_of_done weights input s h := ⟨h.1, B.loaded_of_done weights input s.ext h.2⟩
  modelLoader s h := by
    obtain ⟨huse, hready⟩ := h
    obtain ⟨g, -, htable, -⟩ := huse.pointers
    obtain ⟨ldr, hldr, htakes⟩ := B.modelLoader s.ext hready
    have howned : (wrapper A X).modelLoader s = some (ownedLoader ldr g) := by
      rw [← hX.modelLoader s.ext ldr hldr]
      exact congrArg (Option.map (ownedLoader X.msgLoaderModel)) htable
    refine ⟨ownedLoader ldr g, howned, fun weights hloadable => ?_⟩
    obtain ⟨hreset, hall⟩ := takes_owned g (htakes weights hloadable)
    refine ⟨hreset, fun pieces hpieces => ?_⟩
    obtain ⟨s', hsaves, ⟨hready', e, hinit, hloaded⟩, ext, record, rfl⟩ := hall pieces hpieces
    refine ⟨_, hsaves, ⟨huse.moved ext record, hready'⟩, ?_⟩
    rw [← hX.runtimeInitWeights] at hinit
    obtain ⟨record', hcall⟩ := callRuntime_inUse (huse.moved ext record) .runtimeInitWeights hinit
    exact ⟨_, hcall, (huse.moved ext record).moved e record', hloaded⟩
  dataLoader weights s h := by
    obtain ⟨huse, hloaded⟩ := h
    obtain ⟨g, -, htable, -⟩ := huse.pointers
    obtain ⟨ldr, hldr, htakes⟩ := B.dataLoader weights s.ext hloaded
    have howned : (wrapper A X).dataLoader s = some (ownedLoader ldr g) := by
      rw [← hX.dataLoader s.ext ldr hldr]
      exact congrArg (Option.map (ownedLoader X.msgLoaderInput)) htable
    refine ⟨ownedLoader ldr g, howned, fun input hlen => ?_⟩
    obtain ⟨hreset, hall⟩ := takes_owned g (htakes input hlen)
    refine ⟨hreset, fun pieces hpieces => ?_⟩
    obtain ⟨s', hsaves, ⟨hwritten, e, hinit, hfed⟩, ext, record, rfl⟩ := hall pieces hpieces
    refine ⟨_, hsaves, hwritten, ?_⟩
    rw [← hX.runtimeInitInput] at hinit
    obtain ⟨record', hcall⟩ := callRuntime_inUse (huse.moved ext record) .runtimeInitInput hinit
    exact ⟨_, hcall, (huse.moved ext record).moved e record', hfed⟩
  runtimeRunModelBench weights input s h := by
    have huse : InUse V s := h.elim And.left fun h => h.2.1
    have hbefore : B.Fed weights input s.ext ∨ (M.repeatable ∧ B.Done weights input s.ext) :=
      h.imp And.right fun h => ⟨h.1, h.2.2⟩
    obtain ⟨e, hrun, hdone⟩ := B.runtimeRunModelBench weights input s.ext hbefore
    rw [← hX.runtimeRunModelBench] at hrun
    obtain ⟨record, hcall⟩ := callRuntime_inUse huse .runtimeRunModelBench hrun
    exact ⟨_, hcall, huse.moved e record, hdone⟩
  runtimeGetModelOutput weights input s h := by
    intro spec hspec n buffer hsize
    obtain ⟨huse, hdone⟩ := h
    obtain ⟨buffer', e, hget, hdone', hbuffer⟩ :=
      B.runtimeGetModelOutput weights input s.ext hdone spec hspec buffer hsize
    rw [← hX.runtimeGetModelOutput] at hget
    obtain ⟨record, hcall⟩ := runtimeGetModelOutput_inUse huse hget
    exact ⟨buffer', _, hcall, ⟨huse.moved e record, hdone'⟩, hbuffer⟩

/-! ### A runtime that is received and loaded -/

section
variable {V : A.Loads images} {s : Llext E Z} {image : List UInt8}

/-- A reset unloads what is loaded. -/
theorem resetRuntime_idle (h : Idle V s ∨ InUse V s) :
    (resetRuntime A s).1 = statusOk ∧ Idle V (resetRuntime A s).2 := by
  rcases h with h | h
  · have hreset : resetRuntime A s =
        (statusOk, {s with addr := none, written := 0, maxSize := 0}) := by
      rw [resetRuntime, h.addr, h.loaded]
      rfl
    rw [hreset]
    exact ⟨rfl, rfl, h.loaded, h.vacant⟩
  · obtain ⟨g, -, -, hloaded⟩ := h.pointers
    obtain ⟨z', z'', hteardown, hunload, hvacant⟩ := V.release s.zephyr h.running
    have hreset : resetRuntime A s = (statusOk, ({s with
        addr := none
        written := 0
        maxSize := 0
        zephyr := z''
        loaded := none } : Llext E Z).happened (.destroy g)) := by
      rw [resetRuntime]
      simp only [h.block, if_true, hloaded, hteardown, hunload, ne_eq, not_true_eq_false, if_false]
    rw [hreset]
    exact ⟨rfl, rfl, rfl, hvacant⟩

/-- Pieces of an image, behind its size, go into a block of that size. -/
structure Received (V : A.Loads images) (image : List UInt8) (s : Llext E Z) : Prop where
  addr : s.addr = some image
  written : s.written = image.length
  loaded : s.loaded = none
  reserved : V.Reserved s.zephyr

theorem saves_of_saveRuntimes {chunks : List (List UInt8)}
    (h : ∀ status ∈ (saveRuntimes A s chunks).1, status = statusOk) :
    (msgLoaderLlext A).saves s chunks = some (saveRuntimes A s chunks).2 := by
  induction chunks generalizing s with
  | nil => rfl
  | cons chunk chunks ih =>
    rw [saveRuntimes_cons, List.forall_mem_cons] at h
    have hsave : (msgLoaderLlext A).save s chunk = (statusOk, (saveRuntime A s chunk).2) :=
      Prod.ext h.1 rfl
    rw [MsgLoader.saves, hsave, saveRuntimes_cons]
    exact ih h.2

theorem saves_received (h : Idle V s) (himage : images image) {first : List UInt8}
    {chunks : List (List UInt8)} (hfirst : runtimeSizeFieldSize ≤ first.length)
    (hall : (first :: chunks).flatten = toBytes runtimeSizeFieldSize image.length ++ image) :
    ∃ s', (msgLoaderLlext A).saves s (first :: chunks) = some s' ∧ Received V image s' := by
  have hsize : declaredSize first = image.length := by
    rw [← declaredSize_flatten hfirst, hall, declaredSize, word_toBytes_zero]
    exact V.length_lt image himage
  have hrest : (first.drop runtimeSizeFieldSize :: chunks).flatten = image := by
    rw [flatten_pieces hfirst, hall]
    exact List.drop_left' (length_toBytes _ _)
  have halloc := V.kHeapAlignedAlloc image s.zephyr himage h.vacant
  rw [← hsize] at halloc
  obtain ⟨mem, z', halloc, hreserved⟩ := halloc
  let block : Llext E Z :=
    {s with zephyr := z', addr := some mem.1, written := 0, maxSize := declaredSize first}
  have hblock : HoldsBlock block mem.1 := ⟨rfl, mem.2, Nat.zero_le _⟩
  have hfit : block.written+(first.drop runtimeSizeFieldSize :: chunks).flatten.length ≤
      block.maxSize := by
    rw [hrest, ← hsize]
    exact (Nat.zero_add _).le
  have hpieces : (msgLoaderLlext A).saves s (first :: chunks) =
      (msgLoaderLlext A).saves block (first.drop runtimeSizeFieldSize :: chunks) := by
    have hanswer : A.kHeapAlignedAlloc (word first 0 runtimeSizeFieldSize) s.zephyr = (some mem, z') :=
      halloc
    have hsave : saveRuntime A s first =
        saveRuntime A block (first.drop runtimeSizeFieldSize) := by
      rw [saveRuntime_block hblock.addr, saveRuntime, h.addr]
      simp only
      rw [if_neg (Nat.not_lt.mpr hfirst), hanswer]
      simp only
      split
      · rfl
      · next hshort =>
        -- There is nothing behind the size field.
        have hdrop : first.drop runtimeSizeFieldSize = [] :=
          List.drop_eq_nil_of_le (Nat.le_of_not_lt hshort)
        have hnil : block.written+([] : List UInt8).length ≤ block.maxSize := Nat.zero_le _
        rw [hdrop, saveBlock_fit hnil, appended, splice_nil]
        rfl
    have hsave' : (msgLoaderLlext A).save s first =
        (msgLoaderLlext A).save block (first.drop runtimeSizeFieldSize) := hsave
    rw [MsgLoader.saves, MsgLoader.saves, hsave']
  obtain ⟨hok, mem', hblock', htake, hend⟩ := saveRuntimes_fit hblock hfit
  refine ⟨_, hpieces.trans (saves_of_saveRuntimes hok), ?_⟩
  have hmem : mem' = image := by
    have hlen : mem'.length = image.length := by
      rw [hblock'.size, hend, ← hsize]
    rw [hrest] at htake
    have hwhole : mem'.take (0+image.length) = [] ++ image := htake
    rwa [Nat.zero_add, ← hlen, List.take_length, List.nil_append] at hwhole
  rw [hend, hrest, hmem]
  exact ⟨rfl, Nat.zero_add _, h.loaded, hreserved⟩

/-- The extension is loaded from the image, and its runtime initialized. -/
theorem loadRuntime_received (P : X.Provides images Ms) (himage : images image)
    (h : Received V image s) :
    ∃ s', loadRuntime A X image.length s = (statusOk, s') ∧
      ∃ s'', runtimeInit A X s' = (statusOk, s'') ∧ InUse V s'' ∧ (P.evaluates image).Ready s''.ext := by
  obtain ⟨z', z'', hload, hbringup, hrunning⟩ := V.llextLoad image s.zephyr himage h.reserved
  -- After `load_runtime` the image is an extension, and nothing of it has been called.
  let loaded : Llext E Z := {s with
    addr := some image
    runtimeInitialized := false
    loaded := some s.next
    next := s.next+1
    ext := X.load (some image) image.length
    zephyr := z''
    record := s.record ++ [.create s.next] }
  have hloadRuntime : loadRuntime A X image.length s = (statusOk, loaded) := by
    rw [loadRuntime, runtimeDeinit]
    simp only [ne_eq, not_true_eq_false, if_false, h.loaded, Option.isSome_none, Bool.false_eq_true,
      h.addr, hload]
    simp only [happened, hbringup, not_true_eq_false, if_false]
    rfl
  refine ⟨loaded, hloadRuntime, ?_⟩
  obtain ⟨e, hinit, hready⟩ := P.runtimeInit image himage
  rw [P.madeFrom.runtimeInit] at hinit
  have hstatus : (X.runtimeInit (X.load (some image) image.length)).1 = statusOk :=
    congrArg Prod.fst hinit
  have hext : (X.runtimeInit (X.load (some image) image.length)).2.2 = e := congrArg Prod.snd hinit
  have hregisters := P.madeFrom.registers _ hstatus
  have hfound : A.llextFindSym .runtimeInit z'' = true := V.llextFindSym .runtimeInit z'' hrunning
  -- After `runtime_init` its loaders are in the table.
  let started : Llext E Z := {loaded with
    gpLlextRuntime := some s.next
    ldrTable := some s.next
    ext := e
    record := loaded.record ++ [.use s.next] }
  have hruntimeInit : runtimeInit A X loaded = (statusOk, started) := by
    simp only [runtimeInit, findPFunc, loaded, happened, Bool.false_eq_true, if_false, hfound, if_true,
      hstatus, hext, hregisters, statusOf]
    rfl
  exact ⟨started, hruntimeInit, ⟨⟨s.next, rfl, rfl, rfl⟩, rfl, hrunning⟩, hready⟩

end

end Llext

/-! ### Sessions with a host -/

section
variable {cfg : Config} {E Z : Type} {A : LlextApi Z} {X : Extension E} {images : List UInt8 → Prop}
  {Ms : List UInt8 → Models} (V : A.Loads images) (P : X.Provides images Ms)

/-- The server is where the host is. -/
def Hosts (host : Host) (server : Server cfg (Llext E Z)) : Prop :=
  match host.image with
  | none =>
    server.clientConnected = host.session.connected ∧ host.session.stage = .initialized ∧
      Llext.Idle V server.model.runtime
  | some image =>
    Serves (Llext.evaluates V P.madeFrom (P.evaluates image)) host.session server

/-- The first piece is as long as the first message and a chunk allow. -/
theorem piecesOf_cons {m : Message} (ms : List Message) {n : ℕ} (hn : 0 < n)
    (hcfg : n ≤ cfg.messageRecvBufferSize) (hm : n ≤ m.payload.length) :
    ∃ first pieces, piecesOf cfg (m :: ms) = first :: pieces ∧ n ≤ first.length := by
  have hne : m.payload ≠ [] := List.ne_nil_of_length_pos (hn.trans_le hm)
  have hpieces := Chunks.chunks_cons _ cfg.messageRecvBufferSize_pos _ hne
  rw [piecesOf, List.flatMap_cons, hpieces, List.cons_append]
  refine ⟨_, _, rfl, ?_⟩
  rw [List.length_take]
  omega

variable {V P} {host : Host} {server : Server cfg (Llext E Z)} {asked : Bool} {m : Message}
  {ms : List Message}

/-- In every stage, the pointers belong to a loaded extension, or nothing is loaded. -/
theorem Hosts.idle_or_inUse (h : Hosts V P host server) :
    server.clientConnected = host.session.connected ∧
      (Llext.Idle V server.model.runtime ∨ Llext.InUse V server.model.runtime) := by
  rw [Hosts] at h
  cases himage : host.image with
  | none =>
    rw [himage] at h
    exact ⟨h.1, Or.inl h.2.2⟩
  | some image =>
    rw [himage] at h
    exact ⟨h.connected, Or.inr (Evaluates.at_ready h.runtime).1⟩

/-- A runtime is received, loaded and initialized, whatever was loaded before. -/
theorem hosts_loadRuntime (hcfg : Llext.runtimeSizeFieldSize ≤ cfg.messageRecvBufferSize)
    (h : Hosts V P host server) {image : List UInt8} (himage : images image)
    (hc : (HostRequest.loadRuntime image).Carried asked (m :: ms)) :
    ∃ (event : ProtocolEvent) (received : Server cfg (Llext E Z)) (answer : Answer cfg (Llext E Z)),
      (∀ tail, protocolListen cfg (loaderPicker (llextBuild A X)) server
        (bytes (wires (m :: ms)) ++ tail) = some ⟨.ok event, received, tail⟩) ∧
      event.messageType = .runtime ∧ event.isRequest = asked ∧
      msgCallback (llextBuild A X) event received event.messageType = some answer ∧
      answer.status = statusOk ∧ answer.payloadSize = 0 ∧
      Hosts V P ⟨some image, {host.session with stage := .initialized}⟩ answer.server := by
  obtain ⟨htype, hfirst, hflow, hp, hseries, hpayload, hsize⟩ := hc
  obtain ⟨hconnected, hruntime⟩ := h.idle_or_inUse
  obtain ⟨hreset, hidle⟩ := Llext.resetRuntime_idle hruntime
  -- The first chunk of the first message has the size field.
  obtain ⟨first, chunks, hpieces, hlen⟩ := piecesOf_cons ms (by decide) hcfg hsize
  have hall : (first :: chunks).flatten =
      toBytes Llext.runtimeSizeFieldSize image.length ++ image := by
    rw [← hpieces, flatten_piecesOf, hpayload]
  obtain ⟨s, hsaves, hreceived⟩ := Llext.saves_received hidle himage hlen hall
  rw [← hpieces] at hsaves
  obtain ⟨s', hload, s'', hinit, huse, hready⟩ := Llext.loadRuntime_received P himage hreceived
  have hopens : Opens m.hdr .runtime := by
    refine ⟨?_, hfirst, htype⟩
    rw [hflow]
    cases asked
    · exact Or.inl rfl
    · exact Or.inr rfl
  have hisRequest : m.hdr.isRequest = asked := by
    rw [MessageHdr.isRequest, hflow]
    cases asked <;> decide
  have hldr : loaderPicker (llextBuild A X) server .runtime =
      some ((Llext.msgLoaderLlext A).lift Server.runtimeLens) := rfl
  let received : Server cfg (Llext E Z) := Server.runtimeLens.set server s
  let event : ProtocolEvent := ⟨.runtime, m.hdr.flags, m.hdr.isRequest, s.written%2^32⟩
  have hlisten : ∀ tail, protocolListen cfg (loaderPicker (llextBuild A X)) server
      (bytes (wires (m :: ms)) ++ tail) = some ⟨.ok event, received, tail⟩ :=
    protocolListen_saves cfg Server.runtimeLens hopens hp hseries hldr hreset hsaves
  have hcount : event.payloadSize = image.length := by
    show s.written%2^32 = image.length
    rw [hreceived.written]
    exact Nat.mod_eq_of_lt (V.length_lt image himage)
  let model : Model (Llext E Z) :=
    {received.model with runtime := s'', modelState := .initialized, iospecPrepared := true}
  have hcallback : msgCallback (llextBuild A X) event received event.messageType =
      some ⟨statusOk, 0, {received with model}⟩ := by
    have ht : event.messageType = .runtime := rfl
    have hload' : Llext.loadRuntime A X event.payloadSize received.model.runtime = (statusOk, s') := by
      rw [hcount]
      exact hload
    rw [ht]
    show runtimeCallback (llextBuild A X) event received = _
    rw [runtimeCallback, llextBuild]
    simp only
    rw [validateHeader_eq ht, hload']
    simp only [if_true, Model.modelInit, Llext.wrapper, hinit, ne_eq, not_true_eq_false, if_false,
      Model.prepareIospecLoader]
    rfl
  refine ⟨event, received, _, hlisten, rfl, hisRequest, hcallback, rfl, rfl, ?_⟩
  refine ⟨rfl, rfl, hconnected, ?_, ?_, huse, hready⟩
  · intro spec hspec
    cases hspec
  · intro model hmodel
    cases hmodel

/-- A request takes one round of the main loop. -/
theorem mainRound_hostAsk (hcfg : Llext.runtimeSizeFieldSize ≤ cfg.messageRecvBufferSize)
    (h : Hosts V P host server) (ask : HostAsk)
    (hadmits : host.Admits Ms images cfg ask.request) (tail : Rx) (sent : List UInt8) :
    ∃ server' responses,
      mainRound (llextBuild A X) ⟨server, bytes (wires ask.messages) ++ tail, idleTx sent⟩
          ask.checksum = some ⟨server', tail, idleTx (sent ++ sessionWire cfg responses)⟩ ∧
      Hosts V P (host.next Ms ask.request).1 server' ∧
      List.Forall₂ (Responds cfg)
        (if ask.asked then [(ask.request.messageType, (host.next Ms ask.request).2, ask.checksum)]
          else []) responses := by
  obtain ⟨request, asked, messages, checksum, hcarried⟩ := ask
  obtain ⟨image, session⟩ := host
  cases request with
  | loadRuntime image' =>
    cases messages with
    | nil => exact absurd hcarried id
    | cons m ms =>
      obtain ⟨event, received, answer, hlisten, htype, hasked, hcallback, hstatus, hsize, hhosts⟩ :=
        hosts_loadRuntime hcfg h hadmits hcarried
      have hround := mainRound_reply ⟨true, []⟩ hlisten htype hasked hcallback
        (hsize.trans_le (Nat.zero_le _)) (decide_eq_true hstatus) (by rw [hsize, List.take_zero])
        checksum tail sent
      obtain ⟨responses, hround, hresponds⟩ := hround
      exact ⟨answer.server, responses, hround, hhosts, hresponds⟩
  | toRuntime request =>
    cases image with
    | some image =>
      -- With an extension in use this is a round of a built-in runtime.
      have hserves : Serves (Llext.evaluates V P.madeFrom (P.evaluates image)) session server := h
      exact mainRound_ask hserves ⟨request, asked, messages, checksum, hcarried⟩ hadmits tail sent
    | none =>
      cases messages with
      | nil => exact absurd hcarried id
      | cons m ms =>
        -- Without one the host only connects and disconnects.
        obtain ⟨hconnected, hstage, hidle⟩ := h
        rcases hadmits with rfl | rfl
        · obtain ⟨event, status, hlisten, htype, hasked, hcallback, hstatus⟩ :=
            connect_answer (llextBuild A X) server hcarried
          rw [hconnected] at hstatus
          obtain ⟨responses, hround, hresponds⟩ := mainRound_reply ⟨!session.connected, []⟩
            hlisten htype hasked hcallback (Nat.zero_le _) hstatus rfl checksum tail sent
          exact ⟨_, responses, hround, ⟨rfl, hstage, hidle⟩, hresponds⟩
        · obtain ⟨event, hlisten, htype, hasked, hcallback⟩ :=
            disconnect_answer (llextBuild A X) server hcarried
          obtain ⟨responses, hround, hresponds⟩ := mainRound_reply ⟨true, []⟩
            hlisten htype hasked hcallback (Nat.zero_le _) rfl rfl checksum tail sent
          exact ⟨_, responses, hround, ⟨rfl, hstage, hidle⟩, hresponds⟩

/-- A session takes one round for each request. The induction is on the requests that are still to
come. -/
theorem reaches_host (hcfg : Llext.runtimeSizeFieldSize ≤ cfg.messageRecvBufferSize)
    (h : Hosts V P host server) {asks : List HostAsk} (hadmits : host.AdmitsAll Ms images cfg asks)
    (tail : Rx) (sent : List UInt8) :
    ∃ server' responses,
      Reaches (mainRound (llextBuild A X))
        ⟨server, bytes (asks.flatMap fun ask => wires ask.messages) ++ tail, idleTx sent⟩
        (asks.map HostAsk.checksum)
        ⟨server', tail, idleTx (sent ++ sessionWire cfg responses)⟩ ∧
      List.Forall₂ (Responds cfg) (host.replies Ms asks) responses := by
  induction asks generalizing host server sent with
  | nil =>
    refine ⟨server, [], ?_, .nil⟩
    simp only [sessionWire, List.flatMap_nil, List.append_nil, bytes_nil, List.nil_append, List.map_nil]
    exact .refl _
  | cons ask asks ih =>
    obtain ⟨hfirst, hrest⟩ := hadmits
    obtain ⟨server', first, hround, hhosts, hresponds⟩ := mainRound_hostAsk hcfg h ask hfirst
      (bytes (asks.flatMap fun ask => wires ask.messages) ++ tail) sent
    obtain ⟨server'', responses, hreaches, hall⟩ := ih hhosts hrest (sent ++ sessionWire cfg first)
    have hleft : Reaches (mainRound (llextBuild A X))
        ⟨server', bytes (asks.flatMap fun ask => wires ask.messages) ++ tail,
          idleTx (sent ++ sessionWire cfg first)⟩ (asks.map HostAsk.checksum)
        ⟨server'', tail, idleTx (sent ++ sessionWire cfg (first ++ responses))⟩ := by
      rw [sessionWire_append, ← List.append_assoc]
      exact hreaches
    refine ⟨server'', first ++ responses, ?_, List.rel_append hresponds hall⟩
    rw [List.flatMap_cons, bytes_append, List.append_assoc, List.map_cons]
    exact .next hround hleft

end

/-! Two sessions, each with a runtime that was loaded for it. -/

/-- The emlearn runtime, made into an extension, with the static data that come with the image. -/
def emlearnExtension {C D : ℕ} {E : Type} (L : EmlearnModel D E) (hC : C < 2^32) (environment : E) :
    Extension (Emlearn C D E) where
  load _ _ := Emlearn.boot C D hC environment
  runtimeInit s := (statusOk, true, {s with ldrTablePrepared := true})
  runtimeInitWeights := Emlearn.runtimeInitWeights
  runtimeInitInput := Emlearn.runtimeInitInput
  runtimeRunModel := Emlearn.runtimeRunModel L
  runtimeRunModelBench := Emlearn.runtimeRunModelBench L
  runtimeGetModelOutput := Emlearn.runtimeGetModelOutput L
  runtimeGetStatistics := Emlearn.runtimeGetStatistics
  msgLoaderModel := Emlearn.msgLoaderModel
  msgLoaderInput := Emlearn.msgLoaderInput

theorem emlearnExtension_madeFrom {C D : ℕ} {E : Type} (L : EmlearnModel D E) (hC : C < 2^32)
    (environment : E) : (emlearnExtension L hC environment).MadeFrom (Emlearn.wrapper L) where
  runtimeInit _ := rfl
  registers _ _ := rfl
  runtimeInitWeights := rfl
  runtimeInitInput := rfl
  runtimeRunModelBench := rfl
  runtimeGetModelOutput _ _ _ _ := rfl
  modelLoader e ldr h := by
    have h : (if e.ldrTablePrepared then some Emlearn.msgLoaderModel else none) = some ldr := h
    split at h
    · exact Option.some.inj h
    · cases h
  dataLoader e ldr h := by
    have h : (if e.ldrTablePrepared then some Emlearn.msgLoaderInput else none) = some ldr := h
    split at h
    · exact Option.some.inj h
    · cases h

/-- Each image of the runtime provides the model that is compiled in. -/
def emlearnExtension_provides {C D n k : ℕ} {E : Type} {L : EmlearnModel D E}
    {f : List UInt8 → List UInt8} (hL : L.Computes n k f) (hn : n ≤ C) (hC : C < 2^32)
    (environment : E) (images : List UInt8 → Prop) :
    (emlearnExtension L hC environment).Provides images fun _ => emlearnModels n k f where
  runtime := Emlearn.wrapper L
  madeFrom := emlearnExtension_madeFrom L hC environment
  evaluates _ := Emlearn.evaluates hL hn hC
  runtimeInit _ _ := ⟨_, rfl, rfl⟩

/-- Images that are not empty. -/
def roomyZephyr_loads : roomyZephyr.Loads fun image => image ≠ [] ∧ image.length < 2^32 where
  Vacant _ := True
  Reserved _ := True
  Running _ := True
  length_lt _ h := h.2
  kHeapAlignedAlloc image _ _ _ := ⟨⟨List.replicate image.length 0, length_zeros image.length⟩, (), rfl, trivial⟩
  llextLoad image _ h _ := by
    have hne : ¬ image.length = 0 := fun h0 => h.1 (List.length_eq_zero_iff.mp h0)
    exact ⟨(), (), Prod.ext (if_neg hne) rfl, rfl, trivial⟩
  llextFindSym _ _ _ := rfl
  release _ _ := ⟨(), (), rfl, rfl, trivial⟩

theorem length_runtimePayload_lt (b : UInt8) : [1, 0, 0, 0, b].length < 2^32 := by
  show 5 < 2^32
  decide

theorem payloads_runtimeRequest (b : UInt8) :
    payloads [requestMessage .runtime [1, 0, 0, 0, b] (length_runtimePayload_lt b)] =
      toBytes Llext.runtimeSizeFieldSize [b].length ++ [b] := by
  have hsize : toBytes Llext.runtimeSizeFieldSize [b].length = [1, 0, 0, 0] := by
    show toBytes 4 1 = [1, 0, 0, 0]
    decide
  rw [hsize]
  exact List.append_nil _

/-- An image of one byte. -/
def askRuntime (b : UInt8) : HostAsk where
  request := .loadRuntime [b]
  asked := true
  messages := [requestMessage .runtime [1, 0, 0, 0, b] (length_runtimePayload_lt b)]
  checksum _ := 0
  carried := ⟨rfl, rfl, rfl, rfl, .last rfl, payloads_runtimeRequest b, Nat.le_add_left 4 1⟩

def Ask.toRuntime (ask : Ask) : HostAsk :=
  ⟨.toRuntime ask.request, ask.asked, ask.messages, ask.checksum, ask.carried⟩

/-- The requests of a session with a runtime that is loaded already. -/
theorem Host.admitsAll_toRuntime {Ms : List UInt8 → Models} {images : List UInt8 → Prop} {cfg : Config}
    {image : List UInt8} {session : Session} {asks : List Ask} {rest : List HostAsk}
    (h : session.AdmitsAll (Ms image) cfg asks)
    (hrest : (⟨some image, session.after (Ms image) asks⟩ : Host).AdmitsAll Ms images cfg rest) :
    (⟨some image, session⟩ : Host).AdmitsAll Ms images cfg (asks.map Ask.toRuntime ++ rest) := by
  induction asks generalizing session with
  | nil => exact hrest
  | cons ask asks ih => exact ⟨h.1, ih h.2 hrest⟩

/-- A specification, a model without bytes and data, and the output for them. -/
def oneByteUse (b : UInt8) : List Ask :=
  [askSpec, askModel [] length_noWeights, askData b, askProcess, askOutput]

theorem oneByteUse_admitted (b : UInt8) :
    (⟨true, .initialized⟩ : Session).AdmitsAll (emlearnModels 1 1 (List.take 1)) smallConfig
      (oneByteUse b) := by
  refine ⟨⟨length_oneByteSpec, oneByteSpec_valid⟩, ⟨trivial, ?_⟩, ⟨oneByteSpec, [], rfl, rfl⟩,
    Or.inl trivial, ⟨oneByteSpec, [], [b], rfl⟩, trivial⟩
  intro spec hspec
  cases hspec
  exact oneByteSpec_describes

/-- A client that connects, loads a runtime and uses it, and then loads another one. -/
def hostAsks : List HostAsk :=
  askConnect.toRuntime :: askRuntime 9 ::
    ((oneByteUse 7).map Ask.toRuntime ++ askRuntime 8 :: ((oneByteUse 6).map Ask.toRuntime ++ []))

theorem hostAsks_admitted :
    (⟨none, ⟨false, .initialized⟩⟩ : Host).AdmitsAll (fun _ => emlearnModels 1 1 (List.take 1))
      (fun image => image ≠ [] ∧ image.length < 2^32) smallConfig hostAsks := by
  have himage (b : UInt8) : [b] ≠ [] ∧ [b].length < 2^32 :=
    ⟨List.cons_ne_nil _ _, length_singleton_lt b⟩
  refine ⟨Or.inl rfl, himage 9, Host.admitsAll_toRuntime (oneByteUse_admitted 7) ?_⟩
  exact ⟨himage 8, Host.admitsAll_toRuntime (oneByteUse_admitted 6) trivial⟩

theorem length_fourBytes_lt : 4 < 2^32 := by decide

end KenningRuntime
