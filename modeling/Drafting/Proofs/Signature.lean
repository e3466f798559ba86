import Drafting.Kind.Residuals
import Drafting.Proofs.Scoping

namespace Drafting

variable {K : Type} {s : Sketch K} {a b c : ObjectId}

namespace Kind

/-- The classes of the objects in their order. For modifiers it says nothing. -/
def signature : Kind → List ShapeClass
  | .pCoincident | .distancePP => [.only .point, .only .point]
  | .pointOnLine | .pointInMiddle | .symmetry | .distancePL => [.only .point, .only .segment]
  | .pointOnCircle => [.only .point, .round]
  | .pointOnBezier => [.only .point, .only .bezier]
  | .pointOnEllipse => [.only .point, .only .ellipse]
  | .lockPoint => [.only .point]
  | .tangentLC => [.only .segment, .round]
  | .tangentLineBezier => [.only .segment, .only .bezier]
  | .fillet => [.only .segment, .only .segment, .only .arc]
  | .angle | .vertical | .horizontal | .segmentLength | .segmentConsistency => [.only .segment]
  | .angleBetween | .perpendicular | .parallel | .equalLength => [.only .segment, .only .segment]
  | .radiusLength => [.round]
  | .equalRadius => [.round, .round]
  | .polar => [.only .segment, .only .point, .only .point]
  | .arcConsistency => [.only .arc]
  | .mirror => []

/-- How many parameters a constraint of the kind brings along. -/
def brought : Kind → Nat
  | .pointOnBezier => 1
  | .pointOnEllipse => 3
  | .tangentLineBezier => 5
  | _ => 0

end Kind

namespace Gather

open Kind

section Groups

variable (g : s.Grounded)

include g

theorem takes_twoPoints :
    Takes (twoPoints s a b) (s.Fits [.only .point, .only .point] [a, b]) (fun _ => True) 4 0 := by
  refine Takes.iff ((takes_point a).bind fun ha _ _ => (takes_point b).bind fun hb _ _ =>
    (takes_visit g ha).next (takes_visit g hb)) ?_
  simp [Sketch.Fits]

/-- A point and the two ends of a segment, in whatever order. -/
theorem takes_aroundMiddle :
    Takes (aroundMiddle s a b) (s.Fits [.only .point, .only .segment] [a, b])
      (fun _ => True) 6 0 := by
  refine Takes.iff ((takes_segment g b).bind fun _ l ends => (takes_point a).bind fun ha _ _ =>
    (takes_visit g ends.1).next ((takes_visit g ha).next ((takes_visit g ends.2).next
      (takes_pure trivial)))) ?_
  simp [Sketch.Fits, and_comm]

theorem takes_twoAngles :
    Takes (twoAngles s a b) (s.Fits [.only .segment, .only .segment] [a, b])
      (fun _ => True) 2 0 := by
  refine Takes.iff ((takes_segment g a).bind fun _ l _ => (takes_segment g b).bind fun _ l' _ =>
    (takes_hold l.ang).next (takes_hold l'.ang)) ?_
  simp [Sketch.Fits]

/-- One parameter of a segment. -/
theorem takes_ofSegment (part : Segment → Handle) :
    Takes (K := K) (look (s.segment a) >>= fun l => hold (part l)) (s.Fits [.only .segment] [a])
      (fun _ => True) 1 0 := by
  refine Takes.iff ((takes_segment g a).bind fun _ l _ => takes_hold (part l)) ?_
  simp [Sketch.Fits]

variable [Scalar K] (o : Options K)

/-- Five new parameters: a place on the curve, a point there and its tangent. -/
theorem takes_tangentToCurve :
    Takes (tangentToCurve s o a b) (s.Fits [.only .segment, .only .bezier] [a, b])
      (fun _ => True) 16 5 := by
  refine Takes.iff ((takes_segment g a).bind fun _ l ends =>
    (takes_bezier g b).bind fun hb _ points =>
      (takes_position points.1).bind fun _ _ _ => (takes_position points.2.1).bind fun _ _ _ =>
        (takes_position points.2.2.1).bind fun _ _ _ =>
          (takes_position points.2.2.2).bind fun _ _ _ =>
            (takes_visit g hb).next ((takes_bringCurveParam o "t").next
              ((takes_bring _).next ((takes_bring _).next ((takes_bring _).next
                ((takes_bring _).next ((takes_hold l.ang).next (takes_visit g ends.1)))))))) ?_
  simp [Sketch.Fits]

theorem takes_onEllipse :
    Takes (onEllipse s a b) (s.Fits [.only .point, .only .ellipse] [a, b])
      (fun _ => True) 10 3 := by
  refine Takes.iff ((takes_ellipse g b).bind fun hb _ points =>
    (takes_position points.1).bind fun _ _ _ => (takes_position points.2).bind fun _ _ _ =>
      (takes_look Sketch.exists_position).bind fun ha _ _ =>
        (takes_visit g hb).next ((takes_bring _).next ((takes_bring _).next
          ((takes_bring _).next (takes_visit g ha))))) ?_
  simp [Sketch.Fits, and_comm]

end Groups

variable [Scalar K]

/-- The scope of a kind is gathered over the objects that fit its signature. -/
theorem takes_gather (g : s.Grounded) {k : Kind} (hk : k.isModifier = false) (o : Options K)
    {objects : List ObjectId} (accepted : k.arity.accepts objects.length) :
    Takes (k.gather s o objects) (s.Fits k.signature objects) (fun _ => True) k.scopeSize
      k.brought := by
  have single (h : (Arity.exactly 1).accepts objects.length) : ∃ a, objects = [a] :=
    List.length_eq_one_iff.mp (eq_of_beq h)
  have pair (h : (Arity.exactly 2).accepts objects.length) : ∃ a b, objects = [a, b] :=
    List.length_eq_two.mp (eq_of_beq h)
  have triple (h : (Arity.exactly 3).accepts objects.length) : ∃ a b c, objects = [a, b, c] :=
    List.length_eq_three.mp (eq_of_beq h)
  cases k with
  | pCoincident | distancePP =>
    obtain ⟨a, b, rfl⟩ := pair accepted
    exact takes_twoPoints g
  | pointOnLine =>
    obtain ⟨a, b, rfl⟩ := pair accepted
    refine Takes.iff ((takes_segment g b).bind fun _ l ends => (takes_point a).bind fun ha _ _ =>
      (takes_visit g ha).next ((takes_visit g ends.1).next (takes_hold l.ang))) ?_
    simp [Kind.signature, Sketch.Fits, and_comm]
  | pointOnCircle =>
    obtain ⟨a, b, rfl⟩ := pair accepted
    refine Takes.iff ((takes_round g b).bind fun _ r hc => (takes_point a).bind fun ha _ _ =>
      (takes_visit g ha).next (takes_visitRound g hc)) ?_
    simp [Kind.signature, Sketch.Fits, and_comm]
  | pointInMiddle =>
    obtain ⟨a, b, rfl⟩ := pair accepted
    exact takes_discard (takes_aroundMiddle g)
  | symmetry =>
    obtain ⟨a, b, rfl⟩ := pair accepted
    refine Takes.iff ((takes_aroundMiddle g).bind fun _ l _ => takes_hold l.ang) ?_
    rw [and_true]
    rfl
  | distancePL =>
    obtain ⟨a, b, rfl⟩ := pair accepted
    refine Takes.iff ((takes_segment g b).bind fun _ l ends => (takes_point a).bind fun ha _ _ =>
      (takes_visit g ha).next ((takes_hold l.ang).next (takes_visit g ends.1))) ?_
    simp [Kind.signature, Sketch.Fits, and_comm]
  | lockPoint =>
    obtain ⟨a, rfl⟩ := single accepted
    refine Takes.iff ((takes_point a).bind fun ha _ _ => takes_visit g ha) ?_
    simp [Kind.signature, Sketch.Fits]
  | tangentLC =>
    obtain ⟨a, b, rfl⟩ := pair accepted
    refine Takes.iff ((takes_round g b).bind fun _ r hc => (takes_visitLine g a).bind fun _ _ _ =>
      takes_visitRound g hc) ?_
    simp [Kind.signature, Sketch.Fits, and_comm]
  | fillet =>
    obtain ⟨a, b, c, rfl⟩ := triple accepted
    refine Takes.iff ((takes_arc g c).bind fun _ x hc => (takes_visitLine g a).bind fun _ _ _ =>
      (takes_visitLine g b).bind fun _ _ _ => takes_visitRound g (r := ⟨x.c, x.r⟩) hc) ?_
    simp [Kind.signature, Sketch.Fits]
    tauto
  | pointOnBezier =>
    obtain ⟨a, b, rfl⟩ := pair accepted
    refine Takes.iff ((takes_point a).bind fun ha _ _ =>
      (takes_discard (takes_bezier g b)).bind fun hb _ _ =>
        (takes_visit g hb).next ((takes_bringCurveParam o "t").next (takes_visit g ha))) ?_
    simp [Kind.signature, Sketch.Fits]
  | tangentLineBezier =>
    obtain ⟨a, b, rfl⟩ := pair accepted
    exact takes_tangentToCurve g o
  | pointOnEllipse =>
    obtain ⟨a, b, rfl⟩ := pair accepted
    exact takes_onEllipse g
  | angle | vertical | horizontal =>
    obtain ⟨a, rfl⟩ := single accepted
    exact takes_ofSegment g Segment.ang
  | segmentLength =>
    obtain ⟨a, rfl⟩ := single accepted
    exact takes_ofSegment g Segment.t
  | angleBetween | perpendicular | parallel =>
    obtain ⟨a, b, rfl⟩ := pair accepted
    exact takes_twoAngles g
  | radiusLength =>
    obtain ⟨a, rfl⟩ := single accepted
    refine Takes.iff ((takes_round g a).bind fun _ r _ => takes_hold r.r) ?_
    simp [Kind.signature, Sketch.Fits]
  | equalRadius =>
    obtain ⟨a, b, rfl⟩ := pair accepted
    refine Takes.iff ((takes_round g a).bind fun _ r _ => (takes_round g b).bind fun _ r' _ =>
      (takes_hold r.r).next (takes_hold r'.r)) ?_
    simp [Kind.signature, Sketch.Fits]
  | equalLength =>
    obtain ⟨a, b, rfl⟩ := pair accepted
    refine Takes.iff ((takes_segment g a).bind fun _ l _ => (takes_segment g b).bind fun _ l' _ =>
      (takes_hold l.t).next (takes_hold l'.t)) ?_
    simp [Kind.signature, Sketch.Fits]
  | polar =>
    obtain ⟨a, b, c, rfl⟩ := triple accepted
    refine Takes.iff ((takes_segment g a).bind fun _ l _ => (takes_point b).bind fun hb _ _ =>
      (takes_point c).bind fun hc _ _ => (takes_hold l.ang).next ((takes_hold l.t).next
        ((takes_visit g hb).next (takes_visit g hc)))) ?_
    simp [Kind.signature, Sketch.Fits]
  | segmentConsistency =>
    obtain ⟨a, rfl⟩ := single accepted
    refine Takes.iff ((takes_segment g a).bind fun _ l ends => (takes_hold l.ang).next
      ((takes_hold l.t).next ((takes_visit g ends.1).next (takes_visit g ends.2)))) ?_
    simp [Kind.signature, Sketch.Fits]
  | arcConsistency =>
    obtain ⟨a, rfl⟩ := single accepted
    refine Takes.iff ((takes_discard (takes_arc g a)).bind fun ha _ _ => takes_visit g ha) ?_
    simp [Kind.signature, Sketch.Fits]
  | mirror => cases hk

end Gather

end Drafting
