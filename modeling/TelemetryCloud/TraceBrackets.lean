import TelemetryCloud.LapComparison

/-!
# Points of a trace between its points

`bracketBy`, `interpolateTracePointAt` and `distanceAtElapsed` of `lap-trace.ts`: a trace read at a
distance or at an instant, and clamped to its ends.

* `Bracket.read` : a value where a bracket is, with `read_mono`, `read_le`, `le_read` against the
  places and the points of an ordered list;
* `interpolate_distM` : a point asked for on the trace is where it was asked for.
-/

namespace TelemetryCloud.TraceBrackets

open TelemetryCloud.Geometry LapTrace Interpolation LapComparison

/-! ### The code -/

/-- What `bracketBy` finds: one point, where its `a === b`, or a fraction of a hop. -/
inductive Bracket (α K : Type) where
  | point : α → Bracket α K
  | between : α → α → K → Bracket α K

section Code

variable {α K : Type} [Field K] [LinearOrder K]

/-- `bracketBy`, on a list with a point. -/
def bracketBy (points : List α) (hpoints : points ≠ []) (key : α → K) (target : K) :
    Bracket α K :=
  let first := points.head hpoints
  let last := points.getLast hpoints
  if points.length < 2 ∨ target ≤ key first then .point first
  else if key last ≤ target then .point last
  else
    match reach key target points with
    | some (a, b) => .between a b (fraction target (key a) (key b))
    | none => .point last

/-- `interpolateTracePointAt`. -/
def interpolateTracePointAt (points : List (LapTracePoint K K)) (hpoints : points ≠ [])
    (distM : K) : LapTracePoint K K :=
  match bracketBy points hpoints LapTracePoint.distM distM with
  | .point a => a
  | .between a b t =>
    { distM := distM
      elapsedMs := a.elapsedMs + t * (b.elapsedMs - a.elapsedMs)
      lat := a.lat + t * (b.lat - a.lat)
      lon := a.lon + t * (b.lon - a.lon)
      speedKmh := lerpChannel a.speedKmh b.speedKmh t
      rpm := lerpChannel a.rpm b.rpm t
      coolantC := lerpChannel a.coolantC b.coolantC t
      oilC := lerpChannel a.oilC b.oilC t
      gLat := lerpChannel a.gLat b.gLat t
      gLon := lerpChannel a.gLon b.gLon t }

/-- A value where a bracket is. -/
def Bracket.read (value : α → K) : Bracket α K → K
  | .point a => value a
  | .between a b t => value a + t * (value b - value a)

/-- `distanceAtElapsed`. -/
def distanceAtElapsed (points : List (LapTracePoint K K)) (hpoints : points ≠ [])
    (elapsedMs : K) : K :=
  (bracketBy points hpoints LapTracePoint.elapsedMs elapsedMs).read LapTracePoint.distM

end Code

/-! ### Brackets of an ordered list -/

section Order

variable {α K : Type} [Field K] [LinearOrder K] {points : List α} {hpoints : points ≠ []}
  {key value : α → K} {x y : K}

/-- Where `bracketBy` ends: at the first point, at the last, or on the hop that reaches there. -/
theorem bracketBy_cases (hpoints : points ≠ []) (key : α → K) (x : K)
    (hlength : 2 ≤ points.length) :
    (x ≤ key (points.head hpoints) ∧
        bracketBy points hpoints key x = .point (points.head hpoints)) ∨
      (key (points.head hpoints) < x ∧ key (points.getLast hpoints) ≤ x ∧
        bracketBy points hpoints key x = .point (points.getLast hpoints)) ∨
      (key (points.head hpoints) < x ∧ x < key (points.getLast hpoints) ∧
        ∃ hop, reach key x points = some hop ∧
          bracketBy points hpoints key x =
            .between hop.1 hop.2 (fraction x (key hop.1) (key hop.2))) := by
  unfold bracketBy
  dsimp only
  rcases le_or_gt x (key (points.head hpoints)) with hfirst | hfirst
  · exact .inl ⟨hfirst, if_pos (.inr hfirst)⟩
  rw [if_neg (not_or.mpr ⟨not_lt.mpr hlength, not_le.mpr hfirst⟩)]
  rcases le_or_gt (key (points.getLast hpoints)) x with hlast | hlast
  · exact .inr (.inl ⟨hfirst, hlast, if_pos hlast⟩)
  rw [if_neg (not_le.mpr hlast)]
  obtain ⟨hop, hreach⟩ := exists_reach hlength (show ∀ last ∈ points.getLast?, x ≤ key last by
    intro last hmem
    rw [List.getLast?_eq_some_getLast hpoints] at hmem
    cases hmem
    exact hlast.le)
  exact .inr (.inr ⟨hfirst, hlast, hop, hreach, by rw [hreach]⟩)

omit [Field K] in
theorem head?_le (hfirst : key (points.head hpoints) < x) :
    ∀ first ∈ points.head?, key first ≤ x := by
  intro first hmem
  rw [List.head?_eq_some_head hpoints] at hmem
  cases hmem
  exact hfirst.le

variable [IsStrictOrderedRing K]

/-- A value read is between those of the first and the last point. -/
theorem read_bounds (hpoints : points ≠ []) (key : α → K) (x : K) (hlength : 2 ≤ points.length)
    (hvalues : points.Pairwise fun a b => value a ≤ value b) :
    value (points.head hpoints) ≤ (bracketBy points hpoints key x).read value ∧
      (bracketBy points hpoints key x).read value ≤ value (points.getLast hpoints) := by
  have hends := head_le hvalues hpoints (List.getLast_mem hpoints)
  rcases bracketBy_cases hpoints key x hlength with
    ⟨-, heq⟩ | ⟨-, -, heq⟩ | ⟨hfirst, -, hop, hreach, heq⟩
  · rw [heq]
    exact ⟨le_rfl, hends⟩
  · rw [heq]
    exact ⟨hends, le_rfl⟩
  · rw [heq]
    obtain ⟨hlo, hhi⟩ := reading_bounds hreach (head?_le hfirst) hvalues
    obtain ⟨hmem, hmem'⟩ := reach_mem hreach
    exact ⟨(head_le hvalues hpoints hmem).trans hlo, hhi.trans (le_getLast hvalues hpoints hmem')⟩

/-- **Further along, no smaller a value.** -/
theorem read_mono (hlength : 2 ≤ points.length)
    (hvalues : points.Pairwise fun a b => value a ≤ value b) (hxy : x ≤ y) :
    (bracketBy points hpoints key x).read value ≤ (bracketBy points hpoints key y).read value := by
  have hx := read_bounds hpoints key x hlength hvalues
  have hy := read_bounds hpoints key y hlength hvalues
  rcases bracketBy_cases hpoints key x hlength with
    ⟨-, heq⟩ | ⟨hfirst, hlast, heq⟩ | ⟨hfirst, hlast, hop, hreach, heq⟩
  · rw [heq]
    exact hy.1
  · rcases bracketBy_cases hpoints key y hlength with
      ⟨hfirst', -⟩ | ⟨-, -, heq'⟩ | ⟨-, hlast', -⟩
    · exact absurd (hfirst.trans_le (hxy.trans hfirst')) (lt_irrefl _)
    · rw [heq']
      exact hx.2
    · exact absurd (hlast'.trans_le (hlast.trans hxy)) (lt_irrefl _)
  · rcases bracketBy_cases hpoints key y hlength with
      ⟨hfirst', -⟩ | ⟨-, -, heq'⟩ | ⟨-, -, hop', hreach', heq'⟩
    · exact absurd (hfirst.trans_le (hxy.trans hfirst')) (lt_irrefl _)
    · rw [heq']
      exact hx.2
    · rw [heq, heq']
      exact reading_mono hxy hreach hreach' (head?_le hfirst) hvalues

/-- A value read is not above that of a point further along. -/
theorem read_le (hlength : 2 ≤ points.length)
    (hkeys : points.Pairwise fun a b => key a ≤ key b)
    (hvalues : points.Pairwise fun a b => value a ≤ value b) {p : α} (hp : p ∈ points)
    (hxp : x < key p) : (bracketBy points hpoints key x).read value ≤ value p := by
  rcases bracketBy_cases hpoints key x hlength with
    ⟨-, heq⟩ | ⟨-, hlast, heq⟩ | ⟨hfirst, -, hop, hreach, heq⟩
  · rw [heq]
    exact head_le hvalues hpoints hp
  · exact absurd (hlast.trans_lt hxp) (not_lt.mpr (le_getLast hkeys hpoints hp))
  · rw [heq]
    exact reading_le hreach (head?_le hfirst) hvalues hp hxp

/-- A value read is not below that of a point before it. -/
theorem le_read (hlength : 2 ≤ points.length)
    (hkeys : points.Pairwise fun a b => key a ≤ key b)
    (hvalues : points.Pairwise fun a b => value a ≤ value b) {p : α} (hp : p ∈ points)
    (hpx : key p < x) : value p ≤ (bracketBy points hpoints key x).read value := by
  rcases bracketBy_cases hpoints key x hlength with
    ⟨hfirst, -⟩ | ⟨-, -, heq⟩ | ⟨hfirst, -, hop, hreach, heq⟩
  · exact absurd (hpx.trans_le hfirst) (not_lt.mpr (head_le hkeys hpoints hp))
  · rw [heq]
    exact le_getLast hvalues hpoints hp
  · rw [heq]
    exact le_reading hreach (head?_le hfirst) hkeys hvalues hp hpx

end Order

/-! ### Points on a trace -/

section Trace

variable {K : Type} [Field K] [LinearOrder K] {points : List (LapTracePoint K K)}
  {hpoints : points ≠ []} {distM distM' : K}

theorem interpolate_elapsedMs (hpoints : points ≠ []) (distM : K) :
    (interpolateTracePointAt points hpoints distM).elapsedMs =
      (bracketBy points hpoints LapTracePoint.distM distM).read LapTracePoint.elapsedMs := by
  unfold interpolateTracePointAt
  split
  · rename_i heq
    rw [heq, Bracket.read]
  · rename_i heq
    rw [heq, Bracket.read]

omit [LinearOrder K] in
theorem endM_eq (hpoints : points ≠ []) : endM points = (points.getLast hpoints).distM := by
  rw [endM, List.getLast?_eq_some_getLast hpoints]
  rfl

theorem head_distM (h : IsTrace points) (hpoints : points ≠ []) :
    (points.head hpoints).distM = 0 :=
  h.origin _ (List.head?_eq_some_head hpoints)

/-- **A point asked for on the trace is where it was asked for.** -/
theorem interpolate_distM (h : IsTrace points) (hnonneg : 0 ≤ distM) (hle : distM ≤ endM points) :
    (interpolateTracePointAt points hpoints distM).distM = distM := by
  rw [endM_eq hpoints] at hle
  unfold interpolateTracePointAt
  rcases bracketBy_cases hpoints LapTracePoint.distM distM h.length with
    ⟨hfirst, heq⟩ | ⟨-, hlast, heq⟩ | ⟨-, -, hop, -, heq⟩
  · rw [heq]
    rw [head_distM h hpoints] at hfirst
    exact (head_distM h hpoints).trans (le_antisymm hnonneg hfirst)
  · rw [heq]
    exact le_antisymm hlast hle
  · rw [heq]

end Trace

end TelemetryCloud.TraceBrackets
