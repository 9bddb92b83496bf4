import EconRos2Driver.GstStart

/-!
# What `start` and `stop` leave of the pipeline

Until `gst_bin_add_many` an element belongs to nobody but `start`, which returns early when a
factory has failed. What it has made by then is in no bin, so `stop` does not free it.
-/

namespace EconRos2Driver

open Ledger

def objects (elements : List GstElement) : List GstObject := elements.map .element

/-- The elements between source and sink. -/
def filters : ImageFormat → List GstElement
  | .kJpeg => [.capsJpeg]
  | .kRawBgr8 => [.capsCapture, .nvconv, .capsOutput, .vidconv, .capsBgr]

def ends : List GstElement := [.pipeline, .src, .sink]

/-- The elements that `build_chain` leaves in no bin. -/
def unbinned (answer : GstStartAnswer) (format : ImageFormat) : List GstElement :=
  if (filters format).all answer.make then []
  else (filters format).filter answer.make ++ [.src, .sink]

/-- The elements that `start` leaves in no bin. -/
def stranded (answer : GstStartAnswer) (format : ImageFormat) : List GstElement :=
  if ends.all answer.make then unbinned answer format else [.src, .sink].filter answer.make

namespace GstObjects

variable {answer : GstStartAnswer} {o : GstObjects} {rest : List GstObject}

/-- The pipeline, while there is a pointer to it. -/
def ownPipeline (o : GstObjects) : List GstObject :=
  if o.pipeline then [.element .pipeline] else []

theorem leaves_makeAll (answer : GstStartAnswer) (h : Leaves o.ledger rest)
    (elements : List GstElement) :
    Leaves (o.makeAll answer elements).2.ledger
      (objects (elements.filter answer.make) ++ rest) := by
  have htake := h.take (objects (elements.filter answer.make))
  rwa [objects, List.map_map] at htake

theorem leaves_setCaps (h : Leaves o.ledger rest) (e : GstElement) (c : GstCaps) :
    Leaves (o.setCaps e c).ledger rest := by
  have hgive := (h.take [.caps c]).give
  rwa [List.append_assoc] at hgive

theorem leaves_addAndLink {elements : List GstElement}
    (h : Leaves o.ledger (objects elements ++ rest)) :
    Leaves (o.addAndLink answer elements).2.ledger rest := by
  have hgive := h.give
  rwa [objects, List.map_map] at hgive

/-! What has been made can be read off the ledger, and what the bin has off the chain. -/

def madeBy : Entry GstObject → Option GstElement
  | .take (.element e) => some e
  | _ => none

def made (o : GstObjects) : List GstElement := o.ledger.filterMap madeBy

/-- The elements that have been made and are in no bin. -/
def loose (o : GstObjects) : List GstElement :=
  o.made.filter fun e => e ≠ .pipeline ∧ e ∉ o.chain

theorem made_of_append {t : GstObjects} {more : List (Entry GstObject)}
    (h : t.ledger = o.ledger ++ more) : t.made = o.made ++ more.filterMap madeBy := by
  rw [made, h, List.filterMap_append, made]

theorem made_makeAll (answer : GstStartAnswer) (o : GstObjects) (elements : List GstElement) :
    (o.makeAll answer elements).2.made = o.made ++ elements.filter answer.make := by
  refine (made_of_append rfl).trans (congrArg (o.made ++ ·) ?_)
  rw [List.filterMap_map]
  exact List.filterMap_some

theorem made_setCaps (o : GstObjects) (e : GstElement) (c : GstCaps) :
    (o.setCaps e c).made = o.made := (made_of_append rfl).trans (List.append_nil _)

theorem made_addAndLink (o : GstObjects) (elements : List GstElement) :
    (o.addAndLink answer elements).2.made = o.made := by
  refine (made_of_append rfl).trans ?_
  simp [List.filterMap_map, Function.comp_def, madeBy]

/-- **What building a chain can come to.** A filter is missing and no element is in the bin, or all
of them are. -/
inductive Built (answer : GstStartAnswer) (o : GstObjects) (format : ImageFormat)
    (result : Bool × GstObjects) : Prop where
  | missing (hmissing : (filters format).all answer.make = false)
      (hpipeline : result.2.pipeline = o.pipeline)
      (hmade : result.2.made = o.made ++ (filters format).filter answer.make)
      (hchain : result.2.chain = o.chain)
      (hledger : ∀ rest, Leaves o.ledger rest →
        Leaves result.2.ledger (objects ((filters format).filter answer.make) ++ rest))
  | added (hall : (filters format).all answer.make = true)
      (hpipeline : result.2.pipeline = o.pipeline)
      (hmade : result.2.made = o.made ++ filters format)
      (hchain : result.2.chain = .src :: (filters format ++ [.sink]))
      (hledger : ∀ rest, Leaves o.ledger (objects [.src, .sink] ++ rest) →
        Leaves result.2.ledger rest)

theorem perm_objects {made owned added : List GstElement} (h : (made ++ owned).Perm added) :
    (objects made ++ (objects owned ++ rest)).Perm (objects added ++ rest) := by
  rw [← List.append_assoc, objects, objects, ← List.map_append]
  exact (h.map _).append_right rest

theorem filter_make_eq {elements : List GstElement} (h : elements.all answer.make = true) :
    elements.filter answer.make = elements := List.filter_eq_self.mpr (List.all_eq_true.mp h)

theorem makeAll_eq (o : GstObjects) (elements : List GstElement) {ok : Bool}
    (h : elements.all answer.make = ok) :
    o.makeAll answer elements = (ok, (o.makeAll answer elements).2) := Prod.ext h rfl

theorem buildChain_spec (answer : GstStartAnswer) (o : GstObjects) (p : Params)
    (format : ImageFormat) : Built answer o format (o.buildChain answer p format) := by
  have hmissing := fun rest (h : Leaves o.ledger rest) =>
    leaves_makeAll answer h (filters format)
  have hheld : (filters format).all answer.make = true →
      ∀ rest, Leaves o.ledger (objects [.src, .sink] ++ rest) →
        Leaves (o.makeAll answer (filters format)).2.ledger
          (objects (filters format) ++ (objects [.src, .sink] ++ rest)) := by
    intro hall rest h
    have hmake := hmissing _ h
    rwa [filter_make_eq hall] at hmake
  have hmade := made_makeAll answer o (filters format)
  cases format with
  | kJpeg =>
      show Built answer o .kJpeg (o.buildJpegChain answer p.res)
      unfold buildJpegChain
      cases hall : (filters .kJpeg).all answer.make with
      | false =>
          rw [makeAll_eq o [.capsJpeg] hall]
          exact .missing hall rfl hmade rfl hmissing
      | true =>
          rw [makeAll_eq o [.capsJpeg] hall]
          rw [filter_make_eq hall] at hmade
          refine .added hall rfl ?_ rfl fun rest h => leaves_addAndLink ?_
          · exact (made_addAndLink _ _).trans ((made_setCaps _ _ _).trans hmade)
          · refine (leaves_setCaps (hheld hall rest h) _ _).perm (perm_objects ?_)
            decide
  | kRawBgr8 =>
      show Built answer o .kRawBgr8 (o.buildRawChain answer p)
      unfold buildRawChain
      cases hall : (filters .kRawBgr8).all answer.make with
      | false =>
          rw [makeAll_eq o [.capsCapture, .nvconv, .capsOutput, .vidconv, .capsBgr] hall]
          exact .missing hall rfl hmade rfl hmissing
      | true =>
          rw [makeAll_eq o [.capsCapture, .nvconv, .capsOutput, .vidconv, .capsBgr] hall]
          rw [filter_make_eq hall] at hmade
          refine .added hall rfl ?_ rfl fun rest h => leaves_addAndLink ?_
          · rw [made_addAndLink, made_setCaps, made_setCaps, made_setCaps]
            exact hmade
          · refine (leaves_setCaps (leaves_setCaps (leaves_setCaps (hheld hall rest h) _ _) _ _)
              _ _).perm (perm_objects ?_)
            decide

theorem Built.leaves {format : ImageFormat} {result : Bool × GstObjects}
    (h : Built answer o format result) (hends : Leaves o.ledger (objects ends)) :
    Leaves result.2.ledger (objects (unbinned answer format) ++ [.element .pipeline]) := by
  unfold unbinned
  cases h with
  | missing hmissing _ _ _ hledger =>
      rw [if_neg (by rw [hmissing]; decide)]
      refine (hledger _ hends).perm ?_
      rw [objects, objects, objects, List.map_append, List.append_assoc]
      exact List.Perm.append_left _ (by decide)
  | added hall _ _ _ hledger =>
      rw [if_pos hall]
      exact hledger _ (hends.perm (by decide))

theorem Built.pipeline {format : ImageFormat} {result : Bool × GstObjects}
    (h : Built answer o format result) : result.2.pipeline = o.pipeline := by
  cases h with
  | missing _ hpipeline _ _ _ => exact hpipeline
  | added _ hpipeline _ _ _ => exact hpipeline

theorem leaves_play {result : Bool × GstObjects} (hpipeline : result.2.pipeline = true)
    (h : Leaves result.2.ledger (rest ++ [.element .pipeline])) :
    Leaves (play answer result).2.ledger (rest ++ (play answer result).2.ownPipeline) := by
  obtain ⟨ok, o⟩ := result
  have hown : o.ownPipeline = [.element .pipeline] := if_pos hpipeline
  cases ok with
  | false =>
      rw [← hown] at h
      exact h
  | true =>
      have hgive := (h.take [.srcPad]).give
      rwa [List.append_assoc, ← hown] at hgive

theorem leaves_start (answer : GstStartAnswer) (p : Params) (format : ImageFormat) :
    Leaves (start answer {} p format).2.ledger (objects (stranded answer format)
      ++ (start answer {} p format).2.ownPipeline) := by
  have hends := leaves_makeAll answer (o := {}) leaves_nil ends
  rw [List.append_nil] at hends
  unfold start stranded
  cases hall : ends.all answer.make with
  | false =>
      rw [makeAll_eq _ [.pipeline, .src, .sink] hall]
      refine hends.perm ?_
      cases hpipeline : answer.make .pipeline with
      | false => simp [ownPipeline, hpipeline, ends, objects]
      | true =>
          simp only [ownPipeline, hpipeline, if_true, ends, List.filter_cons_of_pos]
          exact @List.perm_append_comm _ [GstObject.element .pipeline] _
  | true =>
      rw [makeAll_eq _ [.pipeline, .src, .sink] hall]
      rw [filter_make_eq hall] at hends
      have hbuilt := buildChain_spec answer
        { (({} : GstObjects).makeAll answer ends).2 with pipeline := true, sink := true } p format
      rw [if_pos rfl]
      exact leaves_play hbuilt.pipeline (hbuilt.leaves hends)

theorem leaves_drainBus (h : Leaves o.ledger rest) (bus : GstBusAnswer) :
    Leaves (o.drainBus bus).ledger rest := by
  cases bus with
  | nothing =>
      have hgive := (h.take [.bus]).give
      rwa [List.append_assoc] at hgive
  | eos =>
      have hgive := (((h.take [.bus]).take [.message]).give).give
      simpa only [drainBus, List.append_assoc, List.map_cons, List.map_nil, List.cons_append,
        List.nil_append] using hgive
  | error gerr dbg =>
      have htexts := ((((h.take [.bus]).take [.message]).take
        ((if gerr then [.error] else []) ++ (if dbg then [.debugText] else []))).give)
      have hgive := htexts.give.give
      simpa only [drainBus, List.append_assoc, List.map_cons, List.map_nil, List.cons_append,
        List.nil_append] using hgive

theorem drainBus_pipeline (o : GstObjects) (bus : GstBusAnswer) :
    (o.drainBus bus).pipeline = o.pipeline := by
  cases bus <;> rfl

theorem leaves_drainBuses (bus : List GstBusAnswer) (h : Leaves o.ledger (rest ++ o.ownPipeline)) :
    Leaves (bus.foldl drainBus o).ledger (rest ++ (bus.foldl drainBus o).ownPipeline) := by
  induction bus generalizing o with
  | nil => exact h
  | cons b bus ih =>
      refine ih ?_
      rw [ownPipeline, drainBus_pipeline]
      exact leaves_drainBus h b

/-- The first `stop` frees the pipeline, and every other one leaves the ledger alone. -/
theorem leaves_stop (h : Leaves o.ledger (rest ++ o.ownPipeline)) :
    Leaves o.stop.ledger rest ∧ o.stop.ownPipeline = [] := by
  unfold stop
  cases hpipeline : o.pipeline with
  | false =>
      rw [if_neg Bool.false_ne_true]
      rw [ownPipeline, hpipeline, if_neg Bool.false_ne_true, List.append_nil] at h
      exact ⟨h, by simp [ownPipeline]⟩
  | true =>
      rw [if_pos rfl]
      rw [ownPipeline, hpipeline, if_pos rfl] at h
      exact ⟨(h.perm List.perm_append_comm).give, rfl⟩

theorem leaves_stops (stops : Nat) (h : Leaves o.ledger (rest ++ o.ownPipeline)) :
    Leaves (stop^[stops + 1] o).ledger rest := by
  induction stops generalizing o with
  | zero => exact (leaves_stop h).1
  | succ stops ih =>
      obtain ⟨hleft, hown⟩ := leaves_stop h
      refine ih ?_
      rwa [hown, List.append_nil]

theorem leaves_session (answer : GstStartAnswer) (p : Params) (format : ImageFormat)
    (bus : List GstBusAnswer) (stops : Nat) :
    Leaves (session answer p format bus (stops + 1)).ledger (objects (stranded answer format)) := by
  have hstart := leaves_start answer p format
  unfold session
  refine leaves_stops stops ?_
  split_ifs
  · exact leaves_drainBuses bus hstart
  · exact hstart

theorem Built.loose {format : ImageFormat} {result : Bool × GstObjects}
    (h : Built answer o format result) (hmade : o.made = ends) (hchain : o.chain = []) :
    result.2.loose.Perm (unbinned answer format) := by
  unfold unbinned
  cases h with
  | missing hmissing _ hmade' hchain' _ =>
      rw [if_neg (by rw [hmissing]; decide), GstObjects.loose, hmade', hchain', hmade, hchain,
        List.filter_append, List.filter_comm]
      refine List.perm_append_comm.trans (.append (.of_eq ?_) (.of_eq rfl))
      cases format <;> rfl
  | added hall _ hmade' hchain' _ =>
      rw [if_pos hall, GstObjects.loose, hmade', hchain', hmade]
      cases format <;> exact .of_eq (by decide)

theorem loose_play (result : Bool × GstObjects) :
    (play answer result).2.loose = result.2.loose := by
  obtain ⟨ok, o⟩ := result
  cases ok with
  | false => rfl
  | true =>
      have hmade : (play answer (true, o)).2.made = o.made :=
        (made_of_append rfl).trans (List.append_nil _)
      rw [loose, hmade, loose]
      rfl

theorem loose_start (answer : GstStartAnswer) (p : Params) (format : ImageFormat) :
    (start answer {} p format).2.loose.Perm (stranded answer format) := by
  have hmade := made_makeAll answer {} ends
  unfold start stranded
  cases hall : ends.all answer.make with
  | false =>
      rw [makeAll_eq _ [.pipeline, .src, .sink] hall, if_neg Bool.false_ne_true]
      have hends : ((ends.filter answer.make).filter fun e =>
          e ≠ .pipeline ∧ e ∉ ([] : List GstElement)) = [.src, .sink].filter answer.make := by
        rw [List.filter_comm]
        rfl
      exact .of_eq ((congrArg (List.filter _) hmade).trans hends)
  | true =>
      rw [makeAll_eq _ [.pipeline, .src, .sink] hall, if_pos rfl, loose_play]
      rw [filter_make_eq hall] at hmade
      exact (buildChain_spec answer _ p format).loose hmade rfl

theorem loose_drainBus (o : GstObjects) (bus : GstBusAnswer) :
    (o.drainBus bus).loose = o.loose := by
  have hmade : (o.drainBus bus).made = o.made := by
    cases bus with
    | nothing | eos => exact (made_of_append rfl).trans (List.append_nil _)
    | error gerr dbg => cases gerr <;> cases dbg <;> simp [made, drainBus, madeBy]
  have hchain : (o.drainBus bus).chain = o.chain := by cases bus <;> rfl
  rw [loose, hmade, hchain, loose]

theorem loose_stop (o : GstObjects) : o.stop.loose = o.loose := by
  unfold stop
  split_ifs
  · simp [loose, made, madeBy]
  · rfl

theorem loose_stops (stops : Nat) (o : GstObjects) : (stop^[stops] o).loose = o.loose := by
  induction stops generalizing o with
  | zero => rfl
  | succ stops ih => exact (ih o.stop).trans (loose_stop o)

theorem loose_session (answer : GstStartAnswer) (p : Params) (format : ImageFormat)
    (bus : List GstBusAnswer) (stops : Nat) :
    (session answer p format bus stops).loose.Perm (stranded answer format) := by
  have hbuses : ∀ o : GstObjects, (bus.foldl drainBus o).loose = o.loose := by
    intro o
    induction bus generalizing o with
    | nil => rfl
    | cons b bus ih => exact (ih (o.drainBus b)).trans (loose_drainBus o b)
  unfold session
  dsimp only
  rw [loose_stops]
  split_ifs
  · rw [hbuses]
    exact loose_start answer p format
  · exact loose_start answer p format

theorem stranded_eq_nil_iff (answer : GstStartAnswer) (format : ImageFormat) :
    stranded answer format = [] ↔ (ends ++ filters format).all answer.make = true
      ∨ answer.make .src = false ∧ answer.make .sink = false := by
  unfold stranded unbinned
  rw [List.all_append, Bool.and_eq_true]
  split_ifs with hends hfilters
  · simp [hends, hfilters]
  · have hsrc : answer.make .src = true := List.all_eq_true.mp hends .src (by decide)
    simp [hfilters, hsrc]
  · simp [hends]

/-- **What `stop` cannot reach.** However a session with the pipeline goes and however often it is
stopped, nothing is freed twice, and what is left in the end are the elements that were made and
never put in the bin. There are none exactly if every factory had delivered or neither the source
nor the sink could be made: a missing filter leaves the source and the sink behind, which
`build_chain` was to put in the bin. -/
theorem pipeline_freed_iff (answer : GstStartAnswer) (p : Params) (format : ImageFormat)
    (bus : List GstBusAnswer) (stops : Nat) (hstops : 0 < stops) :
    Leaves (session answer p format bus stops).ledger
      (objects (session answer p format bus stops).loose)
    ∧ (outstanding (session answer p format bus stops).ledger = some []
      ↔ (ends ++ filters format).all answer.make = true
        ∨ answer.make .src = false ∧ answer.make .sink = false) := by
  obtain ⟨stops, rfl⟩ := Nat.exists_eq_add_one.mpr hstops
  have hleft := leaves_session answer p format bus stops
  have hloose := loose_session answer p format bus (stops + 1)
  refine ⟨hleft.perm (hloose.symm.map _), ?_⟩
  rw [hleft.outstanding_iff, objects, List.map_eq_nil_iff, stranded_eq_nil_iff]

/-- Everything but the converter of the board is there. -/
def noNvconv : GstStartAnswer where
  make e := e ≠ .nvconv
  link := true
  playing := true

theorem pipeline_freed_iff_noNvconv :
    Leaves (session noNvconv (loadParams {}) .kRawBgr8 [] 2).ledger
      (objects [.src, .sink, .capsCapture, .capsOutput, .vidconv, .capsBgr])
    ∧ outstanding (session noNvconv (loadParams {}) .kRawBgr8 [] 2).ledger ≠ some [] := by
  obtain ⟨hleft, hfreed⟩ := pipeline_freed_iff noNvconv (loadParams {}) .kRawBgr8 [] 2 (by decide)
  exact ⟨hleft, mt hfreed.mp (by decide)⟩

/-! ### What the filters pin -/

/-- The size in the last filter that pins one: what reaches the appsink has it. -/
def negotiated (o : GstObjects) : Option (Nat × Nat) :=
  (o.chain.filterMap fun e => (o.caps.lookup e).bind fun c => c.size).getLast?

def pinned (p : Params) : ImageFormat → Nat × Nat
  | .kJpeg => (p.res.captureWidth, p.res.captureHeight)
  | .kRawBgr8 => (p.pubWidth, p.pubHeight)

theorem negotiated_buildChain {p : Params} {format : ImageFormat} (hcaps : o.caps = [])
    (hbuilt : (o.buildChain answer p format).1 = true) :
    (o.buildChain answer p format).2.negotiated = some (pinned p format) := by
  cases format with
  | kJpeg =>
      unfold buildChain buildJpegChain at hbuilt ⊢
      cases hall : (filters .kJpeg).all answer.make with
      | false =>
          rw [makeAll_eq o [.capsJpeg] hall] at hbuilt
          exact absurd hbuilt Bool.false_ne_true
      | true =>
          rw [makeAll_eq o [.capsJpeg] hall]
          simp only [addAndLink, setCaps, makeAll, hcaps]
          rfl
  | kRawBgr8 =>
      unfold buildChain buildRawChain at hbuilt ⊢
      cases hall : (filters .kRawBgr8).all answer.make with
      | false =>
          rw [makeAll_eq o [.capsCapture, .nvconv, .capsOutput, .vidconv, .capsBgr] hall] at hbuilt
          exact absurd hbuilt Bool.false_ne_true
      | true =>
          rw [makeAll_eq o [.capsCapture, .nvconv, .capsOutput, .vidconv, .capsBgr] hall]
          simp only [addAndLink, setCaps, makeAll, hcaps]
          rfl

theorem negotiated_play {result : Bool × GstObjects} (h : (play answer result).1 = true) :
    result.1 = true ∧ (play answer result).2.negotiated = result.2.negotiated := by
  obtain ⟨ok, o⟩ := result
  cases ok with
  | false => exact absurd h Bool.false_ne_true
  | true => exact ⟨rfl, rfl⟩

theorem negotiated_start {p : Params} {format : ImageFormat}
    (hstart : (start answer {} p format).1 = true) :
    (start answer {} p format).2.negotiated = some (pinned p format) := by
  unfold start at hstart ⊢
  cases hall : ends.all answer.make with
  | false =>
      rw [makeAll_eq _ [.pipeline, .src, .sink] hall] at hstart
      exact absurd hstart Bool.false_ne_true
  | true =>
      rw [makeAll_eq _ [.pipeline, .src, .sink] hall] at hstart ⊢
      obtain ⟨hbuilt, hsame⟩ := negotiated_play hstart
      exact hsame.trans (negotiated_buildChain rfl hbuilt)

end GstObjects

end EconRos2Driver
