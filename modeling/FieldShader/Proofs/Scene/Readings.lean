import FieldShader.Proofs.Glsl.Printing
import FieldShader.Proofs.Scene.Rebuilding
import FieldShader.Proofs.Scene.Scoping
import FieldShader.Proofs.SceneFile.Values
import FieldShader.Scene.Workshop

/-!
# What the lines of a scene are meant to say

`Node.readings` is what the lines of a property should be read as, told from the scene alone: which
variable each of them declares, and the tree of its value. The trees have no parentheses, so nothing
in them is left to precedence. The position of a leaf is the right operand of a difference as a
whole, whatever translations are around it, the innermost of them applied first; a negative
parameter is the unary minus of a literal; a subtracted operand is negated alone; and a weight
compares and divides by one and the same sum.

`Node.compile_reads_back` says that this is how the text is read. It goes through the expressions
that are emitted: they are well grouped if the numbers of the scene are finite
(`Node.wellGrouped_emit`), and the trees they were written for are the ones meant here
(`Node.emit_means`).
-/

namespace FieldShader

/-! ## Trees of parameters and positions -/

/-- How a scalar is meant. -/
def Scalar.reading : Scalar → Term
  | .number x => x.term
  | .raw source => .fragment source

/-- How a vector is meant. -/
def Vector.reading : Vector → Term
  | .components x y z => .call "vec3" [x.reading, y.reading, z.reading]
  | .raw source => .fragment source

/-- How the image of a position under a mapping is meant. -/
def Mapping.reading : Mapping → Term → Term
  | .translate offset, position => .binary '+' position offset.reading

namespace Space

/-- How the origin of the space is meant: the zero vector under all mappings, the innermost
first. -/
def reading (s : Space) : Term :=
  s.mappings.foldl (fun position m => m.reading position) Vector.zero.reading

/-- How the way from the origin of the space to the sample point is meant. -/
def offsetReading (s : Space) : Term := .binary '-' (.name "point") s.reading

/-- The numbers of the mappings of the space. -/
def numbers (s : Space) : List Single :=
  s.mappings.flatMap fun | .translate offset => offset.numbers

end Space

namespace Primitive

/-- How the distance of a primitive is meant. -/
def distanceReading (space : Space) : Primitive → Term
  | .sphere radius => .binary '-' (.call "length" [space.offsetReading]) radius.reading
  | .plane normal => .call "abs" [.call "dot" [space.offsetReading, normal.reading]]
  | .ground normal => .call "dot" [space.offsetReading, normal.reading]

/-- How the normal of a primitive is meant. -/
def normalReading (space : Space) : Primitive → Term
  | .sphere _ => .call "normalize" [space.offsetReading]
  | .plane normal | .ground normal => .call "normalize" [normal.reading]

end Primitive

/-! ## Trees of operators -/

namespace OperatorKind

/-- How the weight of the second of two operands is meant: the distance of the first one from the
combined distance, divided by the sum of both, if that sum is positive. -/
def weightReading (first second combined : Term) : Term :=
  let near := Term.call "abs" [.binary '-' first combined]
  let total := Term.binary '+' near (.call "abs" [.binary '-' second combined])
  .choice (.binary '>' total (.numeral "0.0")) (.binary '/' near total) (.numeral "0.5")

/-- How one step is meant. -/
def stepReading (kind : OperatorKind) (smoothing : Scalar) (p : Property) (acc next step : Nat) :
    Term :=
  let value (id : Nat) := Term.name (p.tag ++ toString id)
  let distance (id : Nat) := Term.name ("sdf" ++ toString id)
  match kind, p with
  | .union, .sdf => .call "smin" [value acc, value next, smoothing.reading]
  | .difference, .sdf => .call "smax" [value acc, .negation (value next), smoothing.reading]
  | .cut, .sdf => .call "smax" [value acc, value next, smoothing.reading]
  | .difference, .normal =>
    .call "mix" [value acc, .negation (value next),
      weightReading (distance acc) (.negation (distance next)) (distance step)]
  | .union, .normal | .cut, .normal | _, .color =>
    .call "mix" [value acc, value next,
      weightReading (distance acc) (distance next) (distance step)]

end OperatorKind

/-- How a line that declares a property under an identifier is meant. -/
def Property.reading (p : Property) (id : Nat) (value : Term) : Reading :=
  ⟨p.type.keyword, p.tag ++ toString id, value⟩

namespace OperatorKind

/-- How the steps of an operator are meant. -/
def stepReadings (kind : OperatorKind) (smoothing : Scalar) (p : Property) (id : Nat) :
    (step acc : Nat) → (operands : List Nat) → List Reading
  | _, acc, [] => [p.reading id (.name (p.tag ++ toString acc))]
  | step, acc, next :: rest =>
    p.reading step (kind.stepReading smoothing p acc next step) ::
      kind.stepReadings smoothing p id (step + 1) step rest

/-- How everything that an operator declares after its operands is meant. -/
def foldReadings (kind : OperatorKind) (smoothing : Scalar) (p : Property) (id : Nat) :
    (operands : List Nat) → List Reading
  | [] => []
  | first :: rest => kind.stepReadings smoothing p id (id + 1) first rest

end OperatorKind

/-! ## Trees of a scene -/

namespace Node

mutual

/-- How the lines of a property are meant. -/
def readings (space : Space) (p : Property) : Node → List Reading
  | .shape id primitive finish =>
    match p with
    | .color => [p.reading id finish.material.color.reading]
    | .sdf => [p.reading id (primitive.distanceReading space)]
    | .normal => [p.reading id (primitive.normalReading space)]
  | .material id finish =>
    if p = .color then [p.reading id finish.material.color.reading] else []
  | .transform mapping child => child.readings (space.push mapping) p
  | .operator id kind smoothing operands =>
    readingsAll space p operands ++ kind.foldReadings smoothing p id (operands.map Node.id)

/-- How the lines of several scenes are meant. -/
def readingsAll (space : Space) (p : Property) : List Node → List Reading
  | [] => []
  | n :: ns => n.readings space p ++ readingsAll space p ns

end

end Node

/-! ## Expressions have the trees that are meant -/

@[simp] theorem Scalar.term_toExpr (s : Scalar) : s.toExpr.term = s.reading := by
  cases s <;> rfl

@[simp] theorem Vector.term_toExpr (v : Vector) : v.toExpr.term = v.reading := by
  cases v <;> simp [toExpr, Expr.term, reading]

/-- The origin of a space, every mapping in its place. -/
theorem Space.term_origin (s : Space) : s.origin.term = s.reading := by
  have happly (mappings : List Mapping) (e : Expr) :
      (mappings.foldl (fun position m => m.apply position) e).term =
        mappings.foldl (fun position m => m.reading position) e.term := by
    induction mappings generalizing e with
    | nil => rfl
    | cons m rest ih =>
      obtain ⟨offset⟩ := m
      rw [List.foldl_cons, List.foldl_cons, ih]
      simp [Mapping.apply, Mapping.reading, Expr.term, BinaryOperator.mark]
  rw [origin, apply, happly, Vector.term_toExpr, reading]

/-- The way from the origin to the sample point. -/
theorem Space.term_sub_origin (s : Space) :
    (Expr.binary .sub .point s.origin).term = s.offsetReading := by
  rw [Expr.term, s.term_origin]
  rfl

namespace Primitive

theorem term_distance (space : Space) (primitive : Primitive) :
    (primitive.distance space).term = primitive.distanceReading space := by
  cases primitive <;>
    simp [distance, distanceReading, Expr.term, ← Space.term_sub_origin, BinaryOperator.mark,
      UnaryFunction.name]

theorem term_surfaceNormal (space : Space) (primitive : Primitive) :
    (primitive.surfaceNormal space).term = primitive.normalReading space := by
  cases primitive <;>
    simp [surfaceNormal, normalReading, Expr.term, ← Space.term_sub_origin, BinaryOperator.mark,
      UnaryFunction.name]

end Primitive

namespace OperatorKind

/-- A blend mixes by the weight that is meant. -/
theorem term_blend (a b da db c : Expr) : (blend a b da db c).term =
    .call "mix" [a.term, b.term, weightReading da.term db.term c.term] := by
  have hzero : Single.zero.term = .numeral "0.0" := congrArg Term.numeral (by decide +kernel)
  have hhalf : Single.half.term = .numeral "0.5" := congrArg Term.numeral (by decide +kernel)
  simp [blend, remoteness, weightReading, Expr.term, Expr.zero, Expr.half, hzero, hhalf,
    BinaryOperator.mark, UnaryFunction.name, TernaryFunction.name]

theorem term_combine (kind : OperatorKind) (smoothing : Scalar) (p : Property)
    (acc next step : Nat) : (kind.combine smoothing p acc next step).term =
      kind.stepReading smoothing p acc next step := by
  cases kind <;> cases p <;>
    simp [combine, stepReading, term_blend, Expr.term, Variable.name, Property.tag,
      TernaryFunction.name]

end OperatorKind

namespace Emission

/-- The readings are how the declarations are meant, in order: all of them if the emission succeeds,
and the first few if it fails. -/
structure Means (e : Emission) (rs : List Reading) : Prop where
  initial : e.declarations.map Declaration.reading <+: rs
  complete : e.failure = none → e.declarations.map Declaration.reading = rs

namespace Means

variable {first second : Emission} {rs rs' : List Reading}

/-- A failure alone means nothing. -/
theorem fail (e : CompileError) (rs : List Reading) : (Emission.fail e).Means rs :=
  ⟨List.nil_prefix, nofun⟩

/-- A complete emission. -/
theorem ok {ds : List Declaration} (h : ds.map Declaration.reading = rs) :
    (Emission.ok ds).Means rs :=
  ⟨h ▸ List.prefix_rfl, fun _ => h⟩

/-- A sequence means what its parts mean, one after the other. -/
theorem andThen (h : first.Means rs) (h' : second.Means rs') :
    (first.andThen second).Means (rs ++ rs') := by
  obtain ⟨ds, failure⟩ := first
  cases failure with
  | some e => exact ⟨h.initial.trans (List.prefix_append _ _), nofun⟩
  | none =>
    obtain rfl := h.complete rfl
    refine ⟨?_, fun hok => ?_⟩
    · rw [Emission.andThen, List.map_append]
      exact (List.prefix_append_right_inj _).2 h'.initial
    · rw [Emission.andThen, List.map_append, h'.complete hok]

end Means

end Emission

/-- The steps of an operator are what they are meant to be. -/
theorem OperatorKind.reading_steps (kind : OperatorKind) (smoothing : Scalar) (p : Property)
    (id step acc : Nat) (operands : List Nat) :
    (kind.steps smoothing p id step acc operands).map Declaration.reading =
      kind.stepReadings smoothing p id step acc operands := by
  induction operands generalizing step acc with
  | nil => rfl
  | cons next rest ih =>
    rw [steps, List.map_cons, ih, stepReadings, ← term_combine]
    rfl

namespace Node

/-- Several scenes are what they are meant to be, if each of them is. -/
theorem emitAll_means {space : Space} {p : Property} {ns : List Node}
    (h : ∀ n ∈ ns, (n.emit space p).Means (n.readings space p)) :
    (emitAll space p ns).Means (readingsAll space p ns) := by
  induction ns with
  | nil => exact .ok rfl
  | cons n ns ih =>
    exact (h n List.mem_cons_self).andThen (ih fun m hm => h m (List.mem_cons_of_mem _ hm))

/-- **What is emitted is what is meant**, up to a failure. -/
theorem emit_means (n : Node) (space : Space) (p : Property) :
    (n.emit space p).Means (n.readings space p) := by
  induction n using recTree generalizing space with
  | shape id primitive finish =>
    cases p with
    | sdf =>
      refine .ok ?_
      rw [readings, ← primitive.term_distance]
      rfl
    | normal =>
      refine .ok ?_
      rw [readings, ← primitive.term_surfaceNormal]
      rfl
    | color =>
      refine .ok ?_
      rw [readings, ← Vector.term_toExpr]
      rfl
  | material id finish =>
    cases p with
    | sdf | normal => exact .fail _ _
    | color =>
      refine .ok ?_
      rw [readings, ← Vector.term_toExpr]
      rfl
  | transform mapping child ih => exact ih (space.push mapping)
  | operator id kind smoothing operands ih =>
    rw [emit, readings]
    split
    · exact .fail _ _
    · refine (emitAll_means fun c hc => ih c hc space).andThen (.ok ?_)
      cases operands with
      | nil => rfl
      | cons first rest => exact kind.reading_steps smoothing p id (id + 1) first.id _

end Node

/-! ## Expressions are well grouped -/

namespace Scalar

/-- A finite scalar is well grouped. -/
theorem wellGrouped_toExpr {s : Scalar} (h : AllFinite s.numbers) : s.toExpr.WellGrouped := by
  cases s with
  | number x => exact .number (h x List.mem_cons_self)
  | raw source => exact .raw source _

/-- A scalar binds at least as tight as a sign does. -/
theorem rank_toExpr (s : Scalar) : s.toExpr.category.rank ≤ Category.unary.rank := by
  cases s with
  | number x =>
    rw [toExpr, Expr.category, Single.category]
    split <;> decide
  | raw source => exact Category.rank_primary_le (by decide)

end Scalar

namespace Vector

/-- A finite vector is well grouped. -/
theorem wellGrouped_toExpr {v : Vector} (h : AllFinite v.numbers) : v.toExpr.WellGrouped := by
  cases v with
  | components x y z =>
    obtain ⟨hx, hyz⟩ := allFinite_append.1 h
    obtain ⟨hy, hz⟩ := allFinite_append.1 hyz
    exact .vec3 (x.wellGrouped_toExpr hx) (y.wellGrouped_toExpr hy) (z.wellGrouped_toExpr hz)
  | raw source => exact .raw source _

/-- A vector stands for itself in any place. -/
theorem category_toExpr (v : Vector) : v.toExpr.category = .primary := by
  cases v <;> rfl

end Vector

namespace Space

/-- Positions stay well grouped under finite mappings, and stand for themselves in any place. -/
theorem wellGrouped_apply {s : Space} (h : AllFinite s.numbers) {e : Expr} (he : e.WellGrouped)
    (hprimary : e.category = .primary) :
    (s.apply e).WellGrouped ∧ (s.apply e).category = .primary := by
  obtain ⟨mappings⟩ := s
  induction mappings generalizing e with
  | nil => exact ⟨he, hprimary⟩
  | cons m rest ih =>
    obtain ⟨offset⟩ := m
    obtain ⟨hoffset, hrest⟩ := allFinite_append.1 h
    have hsum : (Mapping.apply (.translate offset) e).WellGrouped := by
      refine .group (.binary he (offset.wellGrouped_toExpr hoffset) ?_ rfl ?_)
      · rw [hprimary]
        decide
      · rw [offset.category_toExpr]
        decide
    exact ih hsum rfl hrest

/-- The way from the origin to the sample point is well grouped. -/
theorem wellGrouped_sub_origin {s : Space} (h : AllFinite s.numbers) :
    (Expr.binary .sub .point s.origin).WellGrouped := by
  obtain ⟨horigin, hprimary⟩ := s.wellGrouped_apply h
    (Vector.zero.wellGrouped_toExpr (by decide)) Vector.zero.category_toExpr
  refine .binary (.position (by decide)) horigin (by decide) rfl ?_
  rw [origin, hprimary]
  decide

end Space

namespace Primitive

variable {space : Space} {primitive : Primitive}

/-- A distance is well grouped. The radius of a sphere may be negative: its sign follows the minus
of the difference after a blank. -/
theorem wellGrouped_distance (hspace : AllFinite space.numbers) (h : AllFinite primitive.numbers) :
    (primitive.distance space).WellGrouped := by
  cases primitive with
  | sphere radius =>
    exact .binary (.unary _ (space.wellGrouped_sub_origin hspace)) (radius.wellGrouped_toExpr h)
      (Category.rank_primary_le nofun) rfl (radius.rank_toExpr.trans (by decide))
  | plane normal =>
    exact .unary _ (.dot (space.wellGrouped_sub_origin hspace) (normal.wellGrouped_toExpr h))
  | ground normal =>
    exact .dot (space.wellGrouped_sub_origin hspace) (normal.wellGrouped_toExpr h)

/-- A normal is well grouped. -/
theorem wellGrouped_surfaceNormal (hspace : AllFinite space.numbers)
    (h : AllFinite primitive.numbers) : (primitive.surfaceNormal space).WellGrouped := by
  cases primitive with
  | sphere radius => exact .unary _ (space.wellGrouped_sub_origin hspace)
  | plane normal | ground normal => exact .unary _ (normal.wellGrouped_toExpr h)

end Primitive

namespace OperatorKind

/-- A blend of variables, the second of them negated or not, is well grouped. -/
theorem wellGrouped_blend {a b db : Expr} {da c : Variable} (ha : a.WellGrouped)
    (hb : b.WellGrouped) (hdb : db.WellGrouped)
    (hrank : db.category.rank ≤ Category.unary.rank) :
    (blend a b (.var da) db (.var c)).WellGrouped := by
  have hremote {e : Expr} (he : e.WellGrouped) (hrank : e.category.rank ≤ Category.unary.rank) :
      (remoteness e (.var c)).WellGrouped :=
    .unary _ (.binary he (.var c) (hrank.trans (by decide)) rfl (Category.rank_primary_le nofun))
  have hnear := hremote (.var da) (Category.rank_primary_le nofun)
  have htotal : (Expr.binary .add (remoteness (.var da) (.var c))
      (remoteness db (.var c))).WellGrouped :=
    .binary hnear (hremote hdb hrank) (Category.rank_primary_le nofun) rfl
      (Category.rank_primary_le nofun)
  have hquotient : (Expr.binary .div (remoteness (.var da) (.var c)) (.group (.binary .add
      (remoteness (.var da) (.var c)) (remoteness db (.var c))))).WellGrouped :=
    .binary hnear (.group htotal) (Category.rank_primary_le nofun) rfl
      (Category.rank_primary_le nofun)
  have hlooser : Category.sum.rank ≤ Category.comparison.rank := by decide
  exact .ternary _ ha hb (.group (.ifGreater htotal (.number (by decide)) hquotient
    (.number (by decide)) hlooser (by decide)))

/-- A step is well grouped. -/
theorem wellGrouped_combine (kind : OperatorKind) {smoothing : Scalar}
    (h : AllFinite smoothing.numbers) (p : Property) (acc next step : Nat) :
    (kind.combine smoothing p acc next step).WellGrouped := by
  have hsmoothing := smoothing.wellGrouped_toExpr h
  have hvar (v : Variable) : (Expr.var v).category.rank ≤ Category.unary.rank :=
    Category.rank_primary_le nofun
  have hneg (v : Variable) : (Expr.neg (.var v)).category.rank ≤ Category.unary.rank :=
    Nat.le_refl _
  cases p with
  | sdf =>
    cases kind with
    | union | cut => exact .ternary _ (.var _) (.var _) hsmoothing
    | difference => exact .ternary _ (.var _) (.neg _) hsmoothing
  | normal =>
    cases kind with
    | union | cut => exact wellGrouped_blend (.var _) (.var _) (.var _) (hvar _)
    | difference => exact wellGrouped_blend (.var _) (.neg _) (.neg _) (hneg _)
  | color => cases kind <;> exact wellGrouped_blend (.var _) (.var _) (.var _) (hvar _)

/-- So is everything that an operator declares. -/
theorem wellGrouped_steps {kind : OperatorKind} {smoothing : Scalar}
    (h : AllFinite smoothing.numbers) {p : Property} {id step acc : Nat} {operands : List Nat}
    {d : Declaration} (hd : d ∈ kind.steps smoothing p id step acc operands) :
    d.value.WellGrouped := by
  rcases steps_cases hd with ⟨v, hv⟩ | ⟨acc, next, step, rfl⟩
  · rw [hv]
    exact .var v
  · exact kind.wellGrouped_combine h p acc next step

end OperatorKind

namespace Node

/-- The material of a leaf is finite if the material that was given is. -/
theorem allFinite_finish {finish : Finish}
    (h : AllFinite ((finish.custom?.map Material.numbers).getD [])) :
    AllFinite finish.material.color.numbers := by
  cases finish with
  | standard => decide
  | custom m => exact h

/-- **What a scene of finite numbers emits is well grouped.** -/
theorem wellGrouped_emit {n : Node} {space : Space} {p : Property}
    (hn : AllFinite n.describe.numbers) (hspace : AllFinite space.numbers) {d : Declaration}
    (hd : d ∈ (n.emit space p).declarations) : d.value.WellGrouped := by
  induction n using recTree generalizing space with
  | shape id primitive finish =>
    obtain ⟨hprimitive, hfinish⟩ := allFinite_append.1 hn
    cases p with
    | sdf =>
      rw [List.mem_singleton.1 hd]
      exact primitive.wellGrouped_distance hspace hprimitive
    | normal =>
      rw [List.mem_singleton.1 hd]
      exact primitive.wellGrouped_surfaceNormal hspace hprimitive
    | color =>
      rw [List.mem_singleton.1 hd]
      exact finish.material.color.wellGrouped_toExpr (allFinite_finish hfinish)
  | material id finish =>
    cases p with
    | sdf | normal => cases hd
    | color =>
      rw [List.mem_singleton.1 hd]
      exact finish.material.color.wellGrouped_toExpr hn
  | transform mapping child ih =>
    obtain ⟨offset⟩ := mapping
    obtain ⟨hoffset, hchild⟩ := allFinite_append.1 hn
    have hpush : AllFinite (space.push (.translate offset)).numbers :=
      allFinite_append.2 ⟨hoffset, hspace⟩
    exact ih hchild hpush hd
  | operator id kind smoothing operands ih =>
    obtain ⟨hsmoothing, hoperands⟩ := allFinite_append.1 hn
    rw [emit] at hd
    split at hd
    · cases hd
    · rcases Emission.mem_andThen hd with hd | hd
      · obtain ⟨c, hc, hd⟩ := mem_emitAll hd
        refine ih c hc (fun x hx => hoperands x ?_) hspace hd
        rw [Description.numbersAll_eq_flatMap, describeAll_eq_map, List.flatMap_map]
        exact List.mem_flatMap.2 ⟨c, hc, hx⟩
      · cases operands with
        | nil => cases hd
        | cons first rest => exact OperatorKind.wellGrouped_steps hsmoothing hd

/-- **Generated code reads back with the structure that is meant.** Compiling a property of any
scene of finite numbers, in any space of finite translations and to any listing, appends lines that
are read, one by one, as the declarations of `Node.readings` and not in any other way: as all of
them if compiling succeeds, and as the first few if it fails. -/
theorem compile_reads_back (n : Node) (space : Space) (p : Property) (l : Listing)
    (hn : AllFinite n.describe.numbers) (hspace : AllFinite space.numbers) :
    ∃ written rs, (n.compile space p l).1.lines = l.lines ++ written ∧
      List.Forall₂ ReadsAs written rs ∧ rs <+: n.readings space p ∧
      ((n.compile space p l).2 = none → rs = n.readings space p) := by
  have hmeans := n.emit_means space p
  refine ⟨_, _, Listing.lines_writeAll l _, ?_, hmeans.initial, hmeans.complete⟩
  rw [List.map_map, List.forall₂_map_left_iff, List.forall₂_map_right_iff, List.forall₂_same]
  exact fun d hd => Declaration.readsAs (wellGrouped_emit hn hspace hd) l.depth

/-- A sphere of a negative radius, moved twice, out of which a plane is taken with a negative
smoothing. -/
def sunken : Node :=
  .operator 2 .difference (.number (.ofRatio true 1 2))
    [.transform (.translate (.raw "u"))
        (.transform (.translate .up) (.shape 0 (.sphere (.number (.ofRatio true 3 2))) .standard)),
      .shape 1 (.plane (.raw "a - b")) .standard]

/-- The lines of `sunken`, read by `compile_reads_back`. -/
theorem compile_reads_back_sunken :
    List.Forall₂ ReadsAs
      ["float sdf0 = length(point - ((vec3(0.0, 0.0, 0.0) + vec3(0.0, 1.0, 0.0)) + (u))) - -1.5;",
        "float sdf1 = abs(dot(point - vec3(0.0, 0.0, 0.0), (a - b)));",
        "float sdf3 = smax(sdf0, -sdf1, -0.5);", "float sdf2 = sdf3;"]
      [⟨"float", "sdf0", .binary '-'
          (.call "length" [.binary '-' (.name "point")
            (.binary '+' (.binary '+' Vector.zero.reading Vector.up.reading) (.fragment "u"))])
          (.negation (.numeral "1.5"))⟩,
        ⟨"float", "sdf1", .call "abs" [.call "dot"
          [.binary '-' (.name "point") Vector.zero.reading, .fragment "a - b"]]⟩,
        ⟨"float", "sdf3", .call "smax"
          [.name "sdf0", .negation (.name "sdf1"), .negation (.numeral "0.5")]⟩,
        ⟨"float", "sdf2", .name "sdf3"⟩] := by
  obtain ⟨written, rs, hlines, hread, -, hall⟩ :=
    compile_reads_back sunken .world .sdf .empty (by decide +kernel) (by decide)
  obtain rfl := hall (by decide +kernel)
  have hwritten : written = _ := hlines.symm
  have hradius : (Single.ofRatio true 3 2).term = .negation (.numeral "1.5") :=
    congrArg (fun text => Term.negation (.numeral text)) (by decide +kernel)
  have hsmoothing : (Single.ofRatio true 1 2).term = .negation (.numeral "0.5") :=
    congrArg (fun text => Term.negation (.numeral text)) (by decide +kernel)
  rw [← hradius, ← hsmoothing]
  rw [hwritten] at hread
  exact hread

end Node

end FieldShader
