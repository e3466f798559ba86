import Drafting.Proofs.Building
import Drafting.Proofs.Checking
import Drafting.Proofs.Loading

namespace Drafting

open Constant (Raw)

/-- Everything that is done with a workbench from outside. -/
inductive Operation (K : Type) where
  | autoCheck
  | point (name : String) (v : Vec K)
  | segment (name : String) (start finish : Vec K)
  | segmentBetween (name a b : String)
  | circle (name : String) (center : Vec K) (r : K)
  | arc (name : String) (center : Vec K) (r ang1 ang2 : K)
  | ellipse (name : String) (ep1 ep2 : Vec K) (r : K)
  | bezier (name : String) (p0 p1 p2 p3 : Vec K)
  | rect (name : String) (x y w h : K)
  | nameObject (name : String) (id : ObjectId)
  | movePoint (name : String) (v : Vec K)
  | setValue (h : Handle) (x : K)
  | constrain (name : String) (kind : Kind) (objects : List String)
  | constrainWith (name : String) (kind : Kind) (objects : List String) (constants : Table (Raw K))
  | consistency (name object : String)
  | setConstant (name constant : String) (value : Raw K)
  | resync (name : String)
  | remove (name : String)
  | applyModifiers
  | load (text : String)
  | check (name : String) (tol : K)
  | checkAll (tol : K)
  | report (tol : K)

variable {K : Type} [Scalar K] [Written K] {b b' : Workbench K}

/-- The workbench after an operation, whether it succeeded or not. -/
def Operation.run (b : Workbench K) : Operation K → Workbench K
  | .autoCheck => { b with autoCheck := true }
  | .point name v => (outcome (Workbench.point name v) b).2
  | .segment name start finish => (outcome (Workbench.segment name start finish) b).2
  | .segmentBetween name x y => (outcome (Workbench.segmentBetween name x y) b).2
  | .circle name center r => (outcome (Workbench.circle name center r) b).2
  | .arc name center r ang1 ang2 => (outcome (Workbench.arc name center r ang1 ang2) b).2
  | .ellipse name ep1 ep2 r => (outcome (Workbench.ellipse name ep1 ep2 r) b).2
  | .bezier name p0 p1 p2 p3 => (outcome (Workbench.bezier name p0 p1 p2 p3) b).2
  | .rect name x y w h => (outcome (Workbench.rect name x y w h) b).2
  | .nameObject name id => (outcome (Workbench.nameObject name id) b).2
  | .movePoint name v => (outcome (Workbench.movePoint name v) b).2
  | .setValue h x => { b with sketch := b.sketch.setValue h x }
  | .constrain name kind objects => (outcome (Workbench.constrain name kind objects) b).2
  | .constrainWith name kind objects constants =>
    (outcome (Workbench.constrainWith name kind objects constants) b).2
  | .consistency name object => (outcome (Workbench.consistency name object) b).2
  | .setConstant name constant value => (outcome (Workbench.setConstant name constant value) b).2
  | .resync name => (outcome (Workbench.resync name) b).2
  | .remove name => (outcome (Workbench.remove name) b).2
  | .applyModifiers => (outcome Workbench.applyModifiers b).2
  | .load text => (outcome (Workbench.load text) b).2
  | .check name tol => (outcome (Workbench.check name tol) b).2
  | .checkAll tol => ((Workbench.checkAll tol).run b).2
  | .report tol => ((Workbench.report tol).run b).2

namespace Workbench

/-- Every operation takes a sound workbench through changes. -/
theorem evolves_run (b : Workbench K) (op : Operation K) : Evolves b (op.run b) := by
  cases op with
  | autoCheck => exact evolves_of_same rfl rfl
  | point name v => exact evolves_point name v b
  | segment name start finish =>
    exact evolves_draw name .segment (fun _ o => Sketch.drawn_addSegment start finish o) b
  | segmentBetween name x y => exact evolves_segmentBetween name x y b
  | circle name center r =>
    exact evolves_draw name .circle (fun _ o => Sketch.drawn_addCircle center r o) b
  | arc name center r ang1 ang2 =>
    exact evolves_draw name .arc (fun _ o => Sketch.drawn_addArc center r ang1 ang2 o) b
  | ellipse name ep1 ep2 r =>
    exact evolves_draw name .ellipse (fun _ o => Sketch.drawn_addEllipse ep1 ep2 r o) b
  | bezier name p0 p1 p2 p3 =>
    exact evolves_draw name .bezier (fun _ o => Sketch.drawn_addBezier p0 p1 p2 p3 o) b
  | rect name x y w h => exact evolves_rect name x y w h b
  | nameObject name id => exact evolves_nameObject name id b
  | movePoint name v => exact evolves_movePoint name v b
  | setValue h x => exact Change.evolves (.write (fun _ => True) (.setValue trivial _ x) rfl)
  | constrain name kind objects => exact evolves_constrain name kind objects b
  | constrainWith name kind objects constants =>
    exact evolves_constrainWith name kind objects constants b
  | consistency name object => exact evolves_consistency name object b
  | setConstant name constant value => exact evolves_setConstant name constant value b
  | resync name => exact evolves_resync name b
  | remove name => exact evolves_remove name b
  | applyModifiers => exact evolves_applyModifiers b
  | load text => exact evolves_load text b
  | check name tol => exact evolves_check name tol b
  | checkAll tol => exact evolves_checkAll tol b
  | report tol => exact evolves_report tol b

/-- The workbench after a session. -/
def after (ops : List (Operation K)) : Workbench K := ops.foldl Operation.run (empty false)

/-- Failing operations are no exception. -/
theorem sound_run (s : Sound b) (op : Operation K) : Sound (op.run b) :=
  (evolves_run b op s).sound s

theorem sound_foldl (s : Sound b) (ops : List (Operation K)) :
    Sound (ops.foldl Operation.run b) := by
  induction ops generalizing b with
  | nil => exact s
  | cons op ops ih => exact ih (sound_run s op)

/-- Marks, parameters and constraints agree after every session, by induction on it. -/
theorem sound_after (ops : List (Operation K)) : Sound (after ops) :=
  sound_foldl (.empty false) ops

end Workbench

end Drafting
