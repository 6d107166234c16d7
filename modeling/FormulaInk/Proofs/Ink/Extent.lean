import Mathlib
import FormulaInk.Proofs.Ink.Affine
import FormulaInk.Proofs.Ink.Visits

/-! Where ink may be, in exact arithmetic. A visit owns the region of the device that the rectangle of
its box is taken to. If every box keeps its own shapes in its rectangle, and its parts in its region,
then everything that is drawn lies in the region of the outermost box. -/

namespace FormulaInk

variable {α : Type} [Turns α] [Field α] [LinearOrder α]

namespace Rect

/-- The points of a rectangle. There are none if its width or its height is negative. -/
def points (r : Rect α) : Set (α × α) :=
  {p | r.x ≤ p.1 ∧ p.1 ≤ r.right ∧ r.y ≤ p.2 ∧ p.2 ≤ r.bottom}

def corners (r : Rect α) : List (α × α) :=
  [(r.x, r.y), (r.right, r.y), (r.x, r.bottom), (r.right, r.bottom)]

end Rect

/-- The points on the device that the bounds of a command are taken from. -/
def Command.corners (c : Command α α) : List (α × α) :=
  c.shape.rect.corners.map c.pen.transform.apply

/-- Bounds that lie in a rectangle. -/
structure Bounds.Within (b : Bounds α) (r : Rect α) : Prop where
  left : r.x ≤ b.left
  right : b.right ≤ r.right
  top : r.y ≤ b.top
  bottom : b.bottom ≤ r.bottom

theorem Command.bounds_within {c : Command α α} {r : Rect α}
    (inside : ∀ p ∈ c.corners, p ∈ r.points) : c.bounds.Within r := by
  have first {f : α × α → α} {P : α → Prop} (each : ∀ p ∈ r.points, P (f p)) :
      ∀ a ∈ c.corners.map f, P a := by
    intro a mem
    obtain ⟨p, corner, rfl⟩ := List.mem_map.mp mem
    exact each p (inside p corner)
  constructor
  · exact Scalar.le_least_iff.mpr (first (f := Prod.fst) fun p hp => hp.1)
  · exact Scalar.greatest_le_iff.mpr (first (f := Prod.fst) fun p hp => hp.2.1)
  · exact Scalar.le_least_iff.mpr (first (f := Prod.snd) fun p hp => hp.2.2.1)
  · exact Scalar.greatest_le_iff.mpr (first (f := Prod.snd) fun p hp => hp.2.2.2)

theorem Bounds.Within.union {b c : Bounds α} {r : Rect α} (h : b.Within r) (k : c.Within r) :
    (b.union c).Within r := by
  constructor
  · show r.x ≤ Scalar.min b.left c.left
    rw [Scalar.min_eq]
    exact le_inf h.left k.left
  · show Scalar.max b.right c.right ≤ r.right
    rw [Scalar.max_eq]
    exact sup_le h.right k.right
  · show r.y ≤ Scalar.min b.top c.top
    rw [Scalar.min_eq]
    exact le_inf h.top k.top
  · show Scalar.max b.bottom c.bottom ≤ r.bottom
    rw [Scalar.max_eq]
    exact sup_le h.bottom k.bottom

/-- The bounds of a picture lie where the corners of its commands do. -/
theorem Recording.bounds_within {g : Recording α α} {r : Rect α}
    (inside : ∀ c ∈ g.commands, ∀ p ∈ c.corners, p ∈ r.points) {b : Bounds α}
    (drawn : g.bounds = some b) : b.Within r := by
  have each : ∀ b ∈ g.commands.map Command.bounds, b.Within r := by
    intro b mem
    obtain ⟨c, hc, rfl⟩ := List.mem_map.mp mem
    exact Command.bounds_within (inside c hc)
  rw [bounds] at drawn
  split at drawn
  · cases drawn
  · next first rest some =>
    rw [some] at each
    obtain rfl := Option.some.inj drawn
    clear some drawn
    induction rest generalizing first with
    | nil => exact each first List.mem_cons_self
    | cons next rest ih =>
      apply ih
      intro b mem
      rcases List.mem_cons.mp mem with rfl | later
      · exact (each first List.mem_cons_self).union
          (each next (List.mem_cons_of_mem first List.mem_cons_self))
      · exact each b (List.mem_cons_of_mem first (List.mem_cons_of_mem next later))

namespace Box

/-- The region of the device that the rectangle of a visited box is taken to. -/
def Visit.region (v : Visit α α) : Set (α × α) :=
  v.pen.transform.apply '' (area v.box.outline v.x v.y).points

/-- The shapes that a box draws: that of its background, and its own. -/
def shapes (b : Box α) (x y : α) : List (Shape α) :=
  b.background.toList.map (fun _ => .fillRect (area b.outline x y)) ++ b.ownShapes x y

/-- The shapes that a box draws have their corners in its rectangle. -/
def KeepsInk (b : Box α) : Prop :=
  ∀ x y, ∀ shape ∈ b.shapes x y, ∀ p ∈ shape.rect.corners, p ∈ (area b.outline x y).points

/-- The parts of a box are painted in its region. -/
def KeepsParts (b : Box α) : Prop :=
  ∀ v : Visit α α, v.box = b → ∀ w ∈ v.inner, w.region ⊆ v.region

theorem Visit.shape_of_command {v : Visit α α} {c : Command α α} (h : c ∈ v.commands) :
    c.shape ∈ v.box.shapes v.x v.y ∧ c.pen.transform = v.pen.transform := by
  rw [commands_eq] at h
  rcases List.mem_append.mp h with filled | own
  · obtain ⟨color, some, rfl⟩ := List.mem_map.mp filled
    exact ⟨List.mem_append_left _ (List.mem_map.mpr ⟨color, some, rfl⟩), rfl⟩
  · obtain ⟨shape, mem, rfl⟩ := List.mem_map.mp own
    exact ⟨List.mem_append_right _ mem, rfl⟩

/-- If every box keeps its ink and its parts, everything is drawn in the region of the outermost. -/
theorem Visit.mem_region_of_ink (v : Visit α α) (parts : ∀ b ∈ v.box.visits, b.KeepsParts)
    (ink : ∀ b ∈ v.box.visits, b.KeepsInk) :
    ∀ c ∈ v.ink, ∀ p ∈ c.corners, p ∈ v.region := by
  induction v using Visit.induction with
  | step v ih =>
    rw [visits_eq, List.forall_mem_cons] at parts ink
    intro c drawn p corner
    rw [ink_eq] at drawn
    rcases List.mem_append.mp drawn with own | inner
    · obtain ⟨shape, same⟩ := shape_of_command own
      obtain ⟨q, hq, rfl⟩ := List.mem_map.mp corner
      rw [same]
      exact Set.mem_image_of_mem _ (ink.1 v.x v.y c.shape shape q hq)
    · obtain ⟨w, visited, drawn⟩ := List.mem_flatMap.mp inner
      have content : w.box ∈ v.box.contents := by
        rw [← v.map_box_inner]
        exact List.mem_map_of_mem visited
      have further : ∀ b ∈ w.box.visits, b ∈ v.box.contents.flatMap visits :=
        fun b hb => List.mem_flatMap.mpr ⟨w.box, content, hb⟩
      have inside := ih w visited (fun b hb => parts.2 b (further b hb))
        (fun b hb => ink.2 b (further b hb)) c drawn p corner
      exact parts.1 v rfl w visited inside

end Box

end FormulaInk
