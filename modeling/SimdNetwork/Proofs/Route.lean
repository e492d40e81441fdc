import SimdNetwork.Proofs.Stage.Coarsen
import SimdNetwork.Proofs.Stage.Valid

/-! Routes read position by position, on units of any size and at every reading of a stage. -/

namespace SimdNetwork

/-- A place inside a block belongs to that block and has its own offset there. -/
theorem block_of_place {size place : Nat} (block : Nat) (within : place < size) :
    (block * size + place) / size = block ∧ (block * size + place) % size = place := by
  -- The whole blocks before it divide out, and the place itself is less than a block.
  have positive : 0 < size := Nat.lt_of_le_of_lt (Nat.zero_le place) within
  rw [Nat.mul_comm, Nat.mul_add_div positive, Nat.div_eq_of_lt within, Nat.mul_add_mod,
    Nat.mod_eq_of_lt within]
  exact ⟨rfl, rfl⟩

/-- A position among expanded units is the same offset inside the unit it belongs to. -/
theorem getElem?_expand {size : Nat} (positive : 0 < size) (units : List Nat) (position : Nat) :
    (expand size units)[position]? =
      units[position / size]?.map fun unit => unit * size + position % size := by
  -- Each unit supplies the first positions of what the units before it leave.
  induction units generalizing position with
  | nil => simp [expand]
  | cons unit rest ih =>
    have whole : expand size (unit :: rest) =
        List.range' (unit * size) size ++ expand size rest := rfl
    rw [whole]
    rcases Nat.lt_or_ge position size with within | beyond
    · rw [List.getElem?_append_left (by simpa using within), List.getElem?_range' within,
        Nat.div_eq_of_lt within, Nat.mod_eq_of_lt within]
      simp
    · -- Past the first unit, one unit fewer lies ahead.
      have quotient : position / size = (position - size) / size + 1 := by
        rw [← Nat.sub_add_cancel beyond, Nat.add_div_right _ positive, Nat.sub_add_cancel beyond]
      have remainder : position % size = (position - size) % size := Nat.mod_eq_sub_mod beyond
      rw [List.getElem?_append_right (by simpa using beyond), List.length_range', ih, quotient,
        remainder, List.getElem?_cons_succ]

/-- A byte of a lane of a unit is a byte of the unit. -/
theorem place_in_unit (unit factor size position : Nat) :
    (unit * factor + position / size % factor) * size + position % size =
      unit * (factor * size) + position % (factor * size) := by
  -- The lane in the unit and the byte in the lane together are the byte in the unit.
  rw [Nat.add_mul, Nat.mul_assoc, Nat.mul_comm factor size, Nat.mod_mul,
    Nat.mul_comm (position / size % factor) size]
  omega

/-- Expanding units to lanes and lanes to bytes is expanding the units to bytes. -/
theorem expand_expand {size factor : Nat} (sizePositive : 0 < size) (factorPositive : 0 < factor)
    (units : List Nat) : expand size (expand factor units) = expand (factor * size) units := by
  -- Both lists have the same position in the same unit at every place.
  apply List.ext_getElem?
  intro position
  rw [getElem?_expand sizePositive, getElem?_expand factorPositive,
    getElem?_expand (Nat.mul_pos factorPositive sizePositive), Nat.div_div_eq_div_mul,
    Nat.mul_comm size factor, Option.map_map]
  congr 1
  funext unit
  exact place_in_unit unit factor size position

/-- A block that was cut off is the run of the list at its place. -/
theorem getElem?_cut {α : Type} (size : Nat) {count : Nat} (list : List α) {index : Nat}
    (inside : index < count) :
    (cut size count list)[index]? = some ((list.drop (index * size)).take size) := by
  -- Every block before this one drops its own size from the front.
  induction count generalizing list index with
  | zero => omega
  | succ count ih =>
    cases index with
    | zero => simp [cut]
    | succ index =>
      rw [cut, List.getElem?_cons_succ, ih (list.drop size) (by omega), List.drop_drop,
        Nat.succ_mul, Nat.add_comm size]

/-- As many blocks are cut off as were asked for. -/
@[simp] theorem length_cut {α : Type} (size count : Nat) (list : List α) :
    (cut size count list).length = count := by
  -- Every further block adds one to the count, however short it is.
  induction count generalizing list with
  | zero => rfl
  | succ count ih => rw [cut, List.length_cons, ih]

namespace Route

/-- The byte that a destination byte comes from, zero beyond the end. -/
def source (route : Route) (position : Nat) : Nat := route.sources.getD position 0

/-- A route that fills a register from bytes of the same register. -/
structure Fits (route : Route) (shape : Shape) : Prop where
  /-- Every byte of the register is filled. -/
  bytes_eq : route.bytes = shape.bytes
  /-- Every source is a byte of the register. -/
  source_mem_lt : ∀ source ∈ route.sources, source < shape.bytes

/-- A position inside the route has the source listed for it. -/
theorem getElem?_sources {route : Route} {position : Nat} (inside : position < route.bytes) :
    route.sources[position]? = some (route.source position) := by
  -- The source of a position is read from the list, which has an entry for it.
  have listed := List.getElem?_eq_getElem (l := route.sources) inside
  rw [source, List.getD_eq_getElem?_getD, listed]
  rfl

/-- A route that takes every byte from among the bytes it fills. -/
def Closed (route : Route) : Prop := ∀ source ∈ route.sources, source < route.bytes

/-- Every byte of a closed route comes from inside the route. -/
theorem Closed.source_lt {route : Route} (closed : route.Closed) {position : Nat}
    (inside : position < route.bytes) : route.source position < route.bytes :=
  -- The source of a position inside is one of those listed.
  closed _ (List.mem_of_getElem? (getElem?_sources inside))

/-- A fitting route is closed, since it fills the register that it reads. -/
theorem Fits.closed {route : Route} {shape : Shape} (fits : route.Fits shape) : route.Closed := by
  -- The route has just as many bytes as the register.
  rw [Closed, fits.bytes_eq]
  exact fits.source_mem_lt

/-- Every byte of a fitting route comes from inside the register. -/
theorem Fits.source_lt {route : Route} {shape : Shape} (fits : route.Fits shape) {position : Nat}
    (inside : position < shape.bytes) : route.source position < shape.bytes := by
  -- A fitting route is closed, and its bytes are those of the register.
  rw [← fits.bytes_eq] at inside ⊢
  exact fits.closed.source_lt inside

/-- A fitting route stays in its lane groups when every byte comes from its own group. -/
theorem isLaneLocal_iff {route : Route} {shape : Shape} (fits : route.Fits shape) :
    route.isLaneLocal = true ↔
      ∀ position < shape.bytes, route.source position / groupBytes = position / groupBytes := by
  -- The list of sources has just one entry for each position of the register.
  rw [isLaneLocal, List.all_eq_true]
  constructor
  · intro every position inside
    have entry : (route.source position, position) ∈ route.sources.zipIdx := by
      rw [List.mk_mem_zipIdx_iff_getElem?]
      exact getElem?_sources (by rw [fits.bytes_eq]; exact inside)
    exact of_decide_eq_true (every _ entry)
  · rintro every ⟨source, position⟩ entry
    rw [List.mk_mem_zipIdx_iff_getElem?] at entry
    obtain ⟨inside, _⟩ := List.getElem?_eq_some_iff.mp entry
    have grouped := every position (by rw [← fits.bytes_eq]; exact inside)
    rw [getElem?_sources inside, Option.some.injEq] at entry
    rw [entry] at grouped
    exact decide_eq_true grouped

/-- The route of a stage has the bytes of all its lanes. -/
@[simp] theorem bytes_ofStage (stage : Stage) (unit : Width) :
    (ofStage stage unit).bytes = stage.lanes * unit.bytes := by
  -- Every lane is expanded to its bytes.
  rw [bytes, ofStage, length_expand, Stage.lanes]

/-- A byte of a lane comes from the same byte of the lane's partner. -/
theorem source_ofStage {stage : Stage} {unit : Width} {position partner : Nat}
    (paired : stage.partners[position / unit.bytes]? = some partner) :
    (ofStage stage unit).source position = partner * unit.bytes + position % unit.bytes := by
  -- The lane that the byte lies in is expanded from its partner, offset by offset.
  rw [source, List.getD_eq_getElem?_getD, ofStage, getElem?_expand unit.bytes_pos, paired]
  rfl

/-- The route of a valid stage is closed, however many lanes the stage has. -/
theorem closed_ofStage {stage : Stage} (valid : stage.Valid) (unit : Width) :
    (ofStage stage unit).Closed := by
  intro source member
  -- Every source lies in the lane of a partner, and the partner is one of the lanes.
  obtain ⟨position, found⟩ := List.mem_iff_getElem?.mp member
  rw [ofStage, getElem?_expand unit.bytes_pos] at found
  obtain ⟨partner, paired, offset⟩ := Option.map_eq_some_iff.mp found
  have below := valid.partner_lt (List.mem_of_getElem? paired)
  have small := Nat.mod_lt position unit.bytes_pos
  have room : (partner + 1) * unit.bytes ≤ stage.lanes * unit.bytes := Nat.mul_le_mul_right _ below
  rw [Nat.succ_mul] at room
  rw [bytes_ofStage]
  omega

/-- The route of a valid stage fits the register whose lanes the stage has. -/
theorem fits_ofStage {stage : Stage} {unit : Width} {shape : Shape} (valid : stage.Valid)
    (full : stage.lanes = shape.lanes unit) : (ofStage stage unit).Fits shape := by
  -- The lanes fill the register, and the route reads nothing beyond them.
  have filled : (ofStage stage unit).bytes = shape.bytes := by
    rw [bytes_ofStage, full, shape.lanes_mul_bytes]
  have closed := closed_ofStage valid unit
  rw [Closed, filled] at closed
  exact ⟨filled, closed⟩

section Units

variable {route : Route} {shape : Shape} {size : Nat} {units : List Nat}

/-- A route that moves in units is those units expanded. -/
theorem units?_eq_some_iff (positive : 0 < size) :
    route.units? size = some units ↔ route.sources = expand size units :=
  blocks?_eq_some_iff positive

/-- The units of a route cover its bytes. -/
theorem bytes_of_units (positive : 0 < size) (found : route.units? size = some units) :
    route.bytes = units.length * size := by
  -- The sources are the units expanded, each to its size.
  rw [bytes, (units?_eq_some_iff positive).mp found, length_expand]

/-- A byte of a route that moves in units comes from the same byte of a whole unit. -/
theorem source_of_units (positive : 0 < size) (found : route.units? size = some units)
    {position unit : Nat} (named : units[position / size]? = some unit) :
    route.source position = unit * size + position % size := by
  -- The sources are the units expanded, and the byte lies at its offset in one of them.
  rw [source, List.getD_eq_getElem?_getD, (units?_eq_some_iff positive).mp found,
    getElem?_expand positive, named]
  rfl

/-- A fitting route fills as many units as the register has. -/
theorem Fits.length_units (fits : route.Fits shape) (positive : 0 < size)
    (found : route.units? size = some units) : units.length = shape.bytes / size := by
  -- The units fill the bytes of the route, which are those of the register.
  rw [← fits.bytes_eq, bytes_of_units positive found, Nat.mul_div_cancel _ positive]

/-- The units of a fitting route are units of the register. -/
theorem Fits.unit_lt (fits : route.Fits shape) (positive : 0 < size)
    (found : route.units? size = some units) {unit : Nat} (member : unit ∈ units) :
    unit < units.length := by
  -- The first byte of the unit is a source, so it lies inside the register.
  have first : unit * size ∈ route.sources := by
    rw [(units?_eq_some_iff positive).mp found, expand, List.mem_flatMap]
    exact ⟨unit, member, List.mem_range'_1.mpr ⟨Nat.le_refl _, by omega⟩⟩
  have below := fits.source_mem_lt _ first
  rw [← fits.bytes_eq, bytes_of_units positive found] at below
  exact Nat.lt_of_mul_lt_mul_right below

/-- A route that takes every byte from its own place in a named unit moves in those units. -/
theorem units?_of_source (fits : route.Fits shape) (positive : 0 < size)
    (whole : size ∣ shape.bytes) {source : Nat → Nat}
    (named : ∀ position < shape.bytes,
      route.source position = source (position / size) * size + position % size) :
    route.units? size = some ((List.range (shape.bytes / size)).map source) := by
  -- The sources are compared with the named units expanded, position by position.
  rw [units?_eq_some_iff positive]
  apply List.ext_getElem?
  intro position
  rw [getElem?_expand positive, List.getElem?_map]
  rcases Nat.lt_or_ge position shape.bytes with inside | beyond
  · have covered : position < route.bytes := by rw [fits.bytes_eq]; exact inside
    rw [getElem?_sources covered, named position inside,
      List.getElem?_range (Nat.div_lt_div_of_lt_of_dvd whole inside)]
    rfl
  · -- Beyond the register both lists have ended.
    have none_left : route.sources.length ≤ position := by
      rw [← bytes, fits.bytes_eq]
      exact beyond
    have outside : shape.bytes / size ≤ position / size := Nat.div_le_div_right beyond
    rw [List.getElem?_eq_none none_left, List.getElem?_eq_none (by simpa using outside)]
    rfl

end Units

end Route

namespace Stage

/-- A coarsened stage is valid, and expanding it gives the narrow stage back. -/
theorem coarsen_eq_some {stage coarse : Stage} {factor : Nat}
    (found : stage.coarsen factor = some coarse) :
    2 ≤ factor ∧ stage.partners = expand factor coarse.partners ∧
      coarse.used = (stage.used + factor - 1) / factor ∧ coarse.Valid := by
  -- A coarse stage is read from blocks of the narrow one, and then passes the check itself.
  unfold coarsen at found
  split at found
  · simp at found
  · rename_i large
    obtain ⟨partners, blocks, checked⟩ := Option.bind_eq_some_iff.mp found
    -- The partners were read as blocks first, and then checked as a stage of their own.
    cases made : ofPartners partners ((stage.used + factor - 1) / factor) with
    | error flaw => simp [made, Except.toOption] at checked
    | ok result =>
      obtain rfl : result = coarse := by simpa [made, Except.toOption] using checked
      have valid := valid_of_ofWritten made
      obtain ⟨_, _, rfl⟩ := map_eq_ok.mp made
      refine ⟨by omega, ?_, rfl, valid⟩
      simpa using (blocks?_eq_some_iff (by omega)).mp blocks

/-- A wider width is as many times wider as the factor says. -/
theorem factorTo_mul_bytes {width wide : Width} (wider : wide ∈ width.wider) :
    width.factorTo wide * width.bytes = wide.bytes := by
  -- The widths are powers of two, so the smaller divides the larger.
  revert wider
  cases width <;> cases wide <;> decide

/-- Every reading of a stage at some width moves the same bytes. -/
theorem ofStage_reading {stage : Stage} {width : Width} {widen : Bool} {candidate : Candidate}
    (listed : candidate ∈ stage.readings width widen) :
    Route.ofStage candidate.stage candidate.unit = Route.ofStage stage width := by
  -- A reading is the stage itself or one of its coarsenings.
  rcases List.mem_cons.mp listed with rfl | coarsened
  · rfl
  · -- A wider reading has partners that expand to the narrow ones.
    cases widen with
    | false => simp at coarsened
    | true =>
      obtain ⟨coarsening, found, rfl⟩ := List.mem_map.mp coarsened
      obtain ⟨wide, wider, made⟩ := List.mem_filterMap.mp found
      obtain ⟨coarse, shrunk, rfl⟩ := Option.map_eq_some_iff.mp made
      obtain ⟨large, expanded, _, _⟩ := coarsen_eq_some shrunk
      rw [Coarsening.candidate, Route.ofStage, Route.ofStage, expanded,
        expand_expand width.bytes_pos (by omega), factorTo_mul_bytes wider]

end Stage

end SimdNetwork
