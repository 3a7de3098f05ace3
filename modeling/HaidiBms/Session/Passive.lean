import HaidiBms.Session.Feeding

/-!
# Handlers that do nothing

With handlers that make no calls an event leaves the session exactly as it was, so what a call amounts to is what it does itself and the list of what it gives out: the frames it sends and the events it raises, in the order in which it does.
-/

namespace Haidi

variable {capacity : ℕ+}

/-- Handlers that make no calls. -/
def Env.passive : Env capacity Call := ⟨fun _ _ _ => [], fun w _ => w⟩

/-- A call that makes a request. -/
structure Ask where
  method : Poll
  fn : Option Ptr
  ctx : Ptr

def Ask.call (ask : Ask) : Call := .poll ask.method ask.fn ask.ctx

def Ask.request (ask : Ask) : Request := ask.method.toRequest ask.fn ask.ctx

/-- Handlers that make requests, or do nothing. -/
def Env.asking (react : World capacity → Handler → Event → List Ask) : Env capacity Ask :=
  ⟨react, fun w ask => (enqueue w ask.request).1⟩

/-- What a session gives out. -/
inductive Output
  | frame (frame : MessageBytes)
  | event (event : Event)
  deriving DecidableEq

def Obs.output? : Obs → Option Output
  | .sent _ _ frame => some (.frame frame)
  | .raised event => some (.event event)
  | _ => none

/-- What some entries of a log gave out, the oldest first. -/
def outputs (log : List (Entry capacity)) : List Output := (log.filterMap fun entry => entry.obs.output?).reverse

@[simp] theorem outputs_append (new past : List (Entry capacity)) : outputs (new ++ past) = outputs past ++ outputs new := by
  simp [outputs]

theorem outputs_cons (entry : Entry capacity) (past : List (Entry capacity)) :
    outputs (entry :: past) = outputs past ++ entry.obs.output?.toList := by
  cases h : entry.obs.output? <;> simp [outputs, h]

theorem outputs_congr {new new' : List (Entry capacity)} (h : new.map Entry.obs = new'.map Entry.obs) :
    outputs new = outputs new' := by
  have hmap : ∀ log : List (Entry capacity), outputs log = ((log.map Entry.obs).filterMap Obs.output?).reverse := by
    intro log
    rw [List.filterMap_map]
    rfl
  rw [hmap, hmap, h]

/-- An event that nothing reacts to only shows in the log. -/
theorem emit_passive (w : World capacity) (event : Event) :
    (emit .passive w event).bms = w.bms ∧ outputs (emit .passive w event).log = outputs w.log ++ [.event event] := by
  let Told : World capacity → Prop := fun w' =>
    w'.bms = { w.bms with dispatching := true } ∧ outputs w'.log = outputs w.log ++ [Output.event event]
  have hnote : ∀ (w' : World capacity) obs, Obs.output? obs = none → Told w' → Told (w'.note obs) :=
    fun w' obs hobs h => ⟨h.1, by simp [outputs_cons, hobs, h.2]⟩
  obtain ⟨w', ⟨hbms, hlog⟩, hemit⟩ := emit_rule (I := Told) (J := Told) .passive w event ⟨rfl, outputs_cons _ _⟩
    (fun w' handler h => hnote w' _ rfl h) (fun _ _ h => h) (fun w' h => hnote w' _ rfl h)
  rw [hemit]
  unfold closed
  cases hnested : w.bms.dispatching with
  | true => exact ⟨hbms.trans (with_dispatching hnested), by simp [outputs_cons, hlog, Obs.output?]⟩
  | false =>
      refine ⟨?_, by simp [outputs_cons, hlog, Obs.output?]⟩
      change { w'.bms with dispatching := false } = w.bms
      rw [hbms]
      exact with_dispatching hnested

/-- What each call of a run gives out. -/
def emitted (w : World capacity) : List Call → List (List Output)
  | [] => []
  | c :: rest => (outputs (call .passive w c).log).drop (outputs w.log).length :: emitted (call .passive w c) rest

theorem emitted_append (w : World capacity) (xs ys : List Call) :
    emitted w (xs ++ ys) = emitted w xs ++ emitted (run .passive w xs) ys := by
  induction xs generalizing w with
  | nil => rfl
  | cons c rest ih => exact congrArg (_ :: ·) (ih _)

/-- A call that gives out what is said, and the calls after it. -/
theorem emitted_cons {w : World capacity} {c : Call} {out : List Output} (rest : List Call)
    (h : outputs (call .passive w c).log = outputs w.log ++ out) :
    emitted w (c :: rest) = out :: emitted (call .passive w c) rest := by
  rw [emitted, h, List.drop_left]

end Haidi
