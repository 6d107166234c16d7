import Mathlib
import FormulaInk.Proofs.Atom.Nodes
import FormulaInk.Proofs.Formula.Failure
import FormulaInk.Proofs.Registry.Reached
import FormulaInk.Rendering

/-! What a formula keeps beside its tree agrees with the tree after any operations: the middle
delimiters are those of its nodes, and it is colored when one of its nodes is a color node. The icon
of a formula is colored when the formula is. -/

namespace FormulaInk

namespace Formula

/-- The formulas that operations lead to, those included that fail. A predefined formula comes from
a registry that operations lead to; anything else may be read with any registry. -/
inductive Reached : Formula → Prop where
  | empty : Reached .empty
  | read {r : Registry} {mode : Source.Mode} {source : String} {f : Formula} :
      (r.formula mode source).result = .ok f → Reached f
  | ofText (t : Tables) (text : String) (align : Alignment) : Reached (.ofText t text align)
  | get {r : Registry} {name : String} {f : Formula} :
      r.Reached → (r.get name).result = .ok f → Reached f
  | add {f : Formula} (a : Atom Float32) : Reached f → Reached (f.add a)
  | addFormula {f g : Formula} : Reached f → Reached g → Reached (f.addFormula g)
  | addSkip {f : Formula} (kind : Skip) : Reached f → Reached (f.addSkip kind)
  | addStrut {f : Formula} (unit : LengthUnit) (width height depth : Float32) :
      Reached f → Reached (f.addStrut unit width height depth)
  | setColor {f : Formula} (color : Color) : Reached f → Reached (f.setColor color)
  | setBackground {f : Formula} (color : Color) : Reached f → Reached (f.setBackground color)
  | centerOnAxis {f : Formula} : Reached f → Reached f.centerOnAxis
  | attempt {f : Formula} (a : Attempt) (r : Registry) : Reached f → Reached (a.run r f).formula
  | setSource (r : Registry) (source : String) : Reached (setSource r source).formula

/-- The summaries of a formula are those of its tree. -/
structure Summarized (f : Formula) : Prop where
  middles : f.middles = Atom.someMiddles f.root
  colored : f.colored = Atom.someColor f.root

theorem allMiddles_items (a : Atom Float32) : Atom.allMiddles (items a) = a.middles := by
  cases a <;> simp [items, Atom.allMiddles, Atom.middles]

theorem anyColor_items (a : Atom Float32) : Atom.anyColor (items a) = a.hasColor := by
  cases a <;> simp [items, Atom.anyColor, Atom.hasColor]

/-- The place for a break behind an atom has neither delimiters nor color. -/
theorem middles_extend (root : Option (Atom Float32)) (a : Atom Float32) :
    (extend root a).middles = Atom.someMiddles root ++ a.middles := by
  cases root with
  | none => rfl
  | some root =>
    have inner := allMiddles_items root
    rw [Atom.allMiddles_eq_flatMap] at inner
    by_cases h : breaksAfter a <;>
      simp [extend, h, Atom.middles, Atom.allMiddles_eq_flatMap, inner, Atom.someMiddles]

theorem hasColor_extend (root : Option (Atom Float32)) (a : Atom Float32) :
    (extend root a).hasColor = (Atom.someColor root || a.hasColor) := by
  cases root with
  | none => rfl
  | some root =>
    have inner := anyColor_items root
    rw [Atom.anyColor_eq_any] at inner
    by_cases h : breaksAfter a <;>
      simp [extend, h, Atom.hasColor, Atom.anyColor_eq_any, inner, Atom.someColor]

namespace Summarized

variable {f : Formula}

theorem empty : Summarized .empty := ⟨rfl, rfl⟩

theorem add (h : f.Summarized) (a : Atom Float32) : (f.add a).Summarized where
  middles := by
    show f.middles ++ a.middles = (extend f.root a).middles
    rw [h.middles, middles_extend]
  colored := by
    show (f.colored || a.hasColor) = (extend f.root a).hasColor
    rw [h.colored, hasColor_extend]

theorem addAll (h : f.Summarized) (atoms : List (Atom Float32)) : (f.addAll atoms).Summarized := by
  induction atoms generalizing f with
  | nil => exact h
  | cons a rest ih => exact ih (h.add a)

theorem addFormula (h : f.Summarized) (other : Formula) : (f.addFormula other).Summarized := by
  unfold Formula.addFormula
  split
  · exact h
  · exact h.add _

theorem textStyle (h : f.Summarized) (style : Option TextStyle) :
    ({ f with textStyle := style } : Formula).Summarized :=
  ⟨h.middles, h.colored⟩

/-- A node around the root that is no color node leaves the summaries as they are. -/
theorem wrap (h : f.Summarized) {a : Atom Float32}
    (middles : a.middles = (f.root.getD .empty).middles)
    (colored : a.hasColor = (f.root.getD .empty).hasColor) :
    ({ f with root := some a } : Formula).Summarized := by
  have same : Atom.someMiddles f.root = (f.root.getD .empty).middles ∧
      Atom.someColor f.root = (f.root.getD .empty).hasColor := by
    cases f.root <;> exact ⟨rfl, rfl⟩
  refine ⟨?_, ?_⟩
  · show f.middles = a.middles
    rw [h.middles, same.1, middles]
  · show f.colored = a.hasColor
    rw [h.colored, same.2, colored]

theorem centerOnAxis (h : f.Summarized) : f.centerOnAxis.Summarized := h.wrap rfl rfl

theorem setFixedTypes (h : f.Summarized) {g : Formula} {left right : AtomClass}
    (fixed : f.setFixedTypes left right = .ok g) : g.Summarized := by
  unfold Formula.setFixedTypes at fixed
  split at fixed
  · cases fixed
  · split at fixed
    · cases fixed
    · obtain rfl := Except.ok.inj fixed
      exact h.wrap rfl rfl

theorem setTextStyle (h : f.Summarized) {g : Formula} {name : Option String}
    (set : f.setTextStyle name = .ok g) : g.Summarized := by
  unfold Formula.setTextStyle at set
  split at set
  · obtain rfl := Except.ok.inj set
    exact h.textStyle _
  · rename_i name
    cases style : TextStyle.ofName name with
    | error e =>
      rw [style] at set
      cases set
    | ok style' =>
      rw [style] at set
      obtain rfl := Except.ok.inj set
      exact h.textStyle _

/-- A color node takes the place of a root that is none, and else of the color node at the root. -/
theorem setColor (h : f.Summarized) (color : Color) : (f.setColor color).Summarized := by
  refine ⟨?_, ?_⟩
  · show f.middles = _
    rw [h.middles, Formula.setColor]
    rcases f.root with _ | root
    · rfl
    · cases root <;> rfl
  · rw [Formula.setColor]
    rcases f.root with _ | root
    · rfl
    · cases root <;> rfl

theorem setBackground (h : f.Summarized) (color : Color) : (f.setBackground color).Summarized := by
  refine ⟨?_, ?_⟩
  · show f.middles = _
    rw [h.middles, Formula.setBackground]
    rcases f.root with _ | root
    · rfl
    · cases root <;> rfl
  · rw [Formula.setBackground]
    rcases f.root with _ | root
    · rfl
    · cases root <;> rfl

theorem ofResult (h : f.Summarized) (r : Registry) {result : Except Error Formula}
    (changed : ∀ g, result = .ok g → g.Summarized) :
    (Edited.ofResult f r result).formula.Summarized := by
  cases result with
  | ok g => exact changed g rfl
  | error e => exact h

theorem addSource (h : f.Summarized) (r : Registry) (source : String) :
    (f.addSource r source).formula.Summarized := by
  unfold Formula.addSource
  dsimp only
  split
  · exact (h.textStyle none).addFormula _
  · exact h

theorem append (h : f.Summarized) (r : Registry) (mode : Source.Mode) (source : String) :
    (f.append r mode source).formula.Summarized := by
  unfold Formula.append
  dsimp only
  split
  · exact h.addAll _
  · exact .empty

theorem attempt (h : f.Summarized) (a : Attempt) (r : Registry) :
    (a.run r f).formula.Summarized := by
  cases a with
  | addSource source => exact h.addSource r source
  | append mode source => exact h.append r mode source
  | setFixedTypes left right =>
    refine h.ofResult r fun g changed => ?_
    exact h.setFixedTypes (mapError_ok.mp changed)
  | setTextStyle name => exact h.ofResult r fun g changed => h.setTextStyle changed

end Summarized

theorem Reached.summarized {f : Formula} (h : f.Reached) : f.Summarized := by
  induction h with
  | empty => exact .empty
  | read found =>
    obtain ⟨items, _, rfl⟩ := Registry.formula_ok.mp found
    exact Summarized.empty.addAll items
  | ofText t text align => exact Summarized.empty.add _
  | @get r name f reached fetched =>
    -- a formula in the cache, like one that is read now, is the empty one with items added
    have adds (items : List (Atom Float32)) : (Formula.empty.addAll items).Summarized :=
      Summarized.empty.addAll items
    have yields (levels : Nat) : Source.Yields (fun _ f => f.Summarized) r.toTables levels :=
      fun _ _ _ => adds _
    exact ((reached.cache_all fun _ => adds).get yields name).2 f fetched
  | add a _ ih => exact ih.add a
  | @addFormula f g _ _ ih => exact ih.addFormula g
  | addSkip kind _ ih => exact ih.add _
  | addStrut unit width height depth _ ih => exact ih.add _
  | setColor color _ ih => exact ih.setColor color
  | setBackground color _ ih => exact ih.setBackground color
  | centerOnAxis _ ih => exact ih.centerOnAxis
  | attempt a r _ ih => exact ih.attempt a r
  | setSource r source => exact Summarized.empty.append r .strict source

/-- The atoms of a formula, each before its parts and these in order. -/
def nodes (f : Formula) : List (Atom Float32) := f.root.toList.flatMap Atom.nodes

theorem Summarized.middles_eq_nodes {f : Formula} (h : f.Summarized) :
    f.middles = f.nodes.filterMap Atom.delimiter? := by
  rw [h.middles, nodes]
  cases f.root with
  | none => rfl
  | some root => simp [Atom.someMiddles, root.middles_eq_nodes]

theorem Summarized.colored_iff {f : Formula} (h : f.Summarized) :
    f.colored = true ↔ ∃ a ∈ f.nodes, a.isColor = true := by
  rw [h.colored, nodes]
  cases f.root with
  | none => simp [Atom.someColor]
  | some root => simp [Atom.someColor, root.hasColor_eq_nodes]

/-- Whether an icon is colored is what the layout tells about the tree. -/
theorem colored_icon {f : Formula} {c : Icon.Config Float32} {built : Icon.Built Float32}
    (builds : f.icon c = .ok built) : built.icon.colored = Atom.someColor f.root := by
  replace builds := mapError_ok.mp builds
  unfold Icon.Config.build at builds
  split at builds
  · cases builds
  · obtain rfl := Except.ok.inj builds
    cases f.root with
    | none => rfl
    | some root => exact root.colored_layout _

/-- The summaries of a formula agree with its tree after any operations, whether they succeed or
fail, and so do those of a predefined formula, whether it is read now or was kept. The formula is
colored when a color node stands somewhere in the tree, its middle delimiters are those of the
tree in order, and an icon of it is colored when the formula is. -/
theorem Reached.summaries_agree {f : Formula} (h : f.Reached) :
    (f.colored = true ↔ ∃ a ∈ f.nodes, a.isColor = true) ∧
      f.middles = f.nodes.filterMap Atom.delimiter? ∧
      ∀ (c : Icon.Config Float32) (built : Icon.Built Float32), f.icon c = .ok built →
        built.icon.colored = f.colored := by
  have summarized := h.summarized
  refine ⟨summarized.colored_iff, summarized.middles_eq_nodes, fun c built builds => ?_⟩
  rw [colored_icon builds, summarized.colored]

/-- A predefined formula that was kept, with a color and a middle delimiter, after a source that
cannot be read was to be added to it. -/
theorem Reached.summaries_agree_kept :
    let r := (Registry.empty.call (.register "x" "a\\middle|")).call (.get "x")
    ∃ f, (r.get "x").result = .ok f ∧ r.cache.contains "x" = true ∧
      let g := ((Attempt.addSource "\x7d").run r (f.setColor .red)).formula
      (g.colored = true ∧ g.middles = ['|']) ∧
        (g.colored = true ↔ ∃ a ∈ g.nodes, a.isColor = true) ∧
        g.middles = g.nodes.filterMap Atom.delimiter? ∧
        ∀ (c : Icon.Config Float32) (built : Icon.Built Float32), g.icon c = .ok built →
          built.icon.colored = g.colored := by
  intro r
  have reached : r.Reached := .call _ (.call _ .empty)
  have fetched : (r.get "x").result = .ok (Formula.empty.addAll [.char 'a', .middle '|']) := by cbv
  have kept : r.cache.contains "x" = true := by cbv
  refine ⟨_, fetched, kept, ⟨by cbv, by cbv⟩, ?_⟩
  exact Reached.summaries_agree (.attempt _ _ (.setColor _ (.get reached fetched)))

end Formula

end FormulaInk
