import CrossPool.Lib.Layout

/-!
# Transport arena layout

The arena of one rank: the root, the mutable state, the mailbox, an input and an output
payload of the same size, and the rows of the DP ranks, which an arena of DP size one has
no storage for.
-/

namespace CrossPool.Transport.Storage

open CrossPool.Lib
open LayoutRegionSpec (array)

/-- `kTransportArenaMagic` -/
def transportArenaMagic : Nat :=
  0x3141544c4f4f5058

/-- `xpool::abi::kVersion` -/
def abiVersion : Nat :=
  93

/-- `xpool::arena::kAllocationAlignment` -/
def allocationAlignment : Nat :=
  256

/-- `xpool::arena::kPayloadAlignment` -/
def payloadAlignment : Nat :=
  16

/-- The element types, where all that no payload may have are one. -/
inductive ScalarType where
  | bfloat16
  | half
  | unsupported
deriving DecidableEq, Repr

/-- Bytes of an element of a supported type. -/
def ScalarType.elementSize : ScalarType → Option Nat
  | .bfloat16 => some 2
  | .half => some 2
  | .unsupported => none

/-- The types of the arena's objects. -/
structure ArenaTypes where
  arenaLayout : ObjectType
  arenaState : ObjectType
  mailbox : ObjectType
  uint32 : ObjectType

/-- The regions in the order of the arena. -/
inductive TransportRegion where
  | layout
  | state
  | mailbox
  | inputPayload
  | outputPayload
  | dpRankPayloadRows
deriving DecidableEq, Repr

namespace TransportRegion

def order : List TransportRegion :=
  [.layout, .state, .mailbox, .inputPayload, .outputPayload, .dpRankPayloadRows]

theorem mem_order (r : TransportRegion) : r ∈ order := by
  cases r <;> decide

end TransportRegion

/-- The specifications of `TransportArenaRegions`. -/
def spec (types : ArenaTypes) (payloadBytes dpRankCount : Nat) : TransportRegion → Option LayoutRegionSpec
  | .layout => some (.object "transport layout" types.arenaLayout)
  | .state => some (.object "transport state" types.arenaState)
  | .mailbox => some (.object "transport mailbox" types.mailbox)
  | .inputPayload => some ⟨"transport input payload", payloadBytes, payloadAlignment⟩
  | .outputPayload => some ⟨"transport output payload", payloadBytes, payloadAlignment⟩
  | .dpRankPayloadRows => array "transport DP-rank payload rows" types.uint32 dpRankCount

/-- `TransportArenaRegions`; `none` where it throws. -/
def regions (types : ArenaTypes) (payloadBytes dpRankCount : Nat) : Option (Regions TransportRegion) :=
  Regions.create TransportRegion.order (spec types payloadBytes dpRankCount) allocationAlignment

theorem regions_safe {types : ArenaTypes} {payloadBytes dpRankCount : Nat} {R : Regions TransportRegion}
    (planned : regions types payloadBytes dpRankCount = some R) : R.Safe (spec types payloadBytes dpRankCount) :=
  Regions.create_safe TransportRegion.mem_order planned

/-! ## The arena root -/

/-- The arguments of `ArenaLayout::create`. -/
structure ArenaGeometry where
  instanceIndex : Nat
  instanceRank : Nat
  atnTpRank : Nat
  atnTpSize : Nat
  atnDpRank : Nat
  atnDpSize : Nat
  payloadRowCapacity : Nat
  hiddenSize : Nat
  payloadDtype : ScalarType
deriving DecidableEq, Repr

/-- `LayoutHeader` -/
structure LayoutHeader where
  magic : Nat
  abiVersion : Nat
  layoutSize : Nat
  totalBytes : Nat
  stateOffset : Nat
deriving DecidableEq, Repr

/-- `ArenaLayout` -/
structure ArenaLayout extends ArenaGeometry where
  header : LayoutHeader
  payloadRowBytes : Nat
  mailboxOffset : Nat
  inputPayloadOffset : Nat
  outputPayloadOffset : Nat
  dpRankPayloadRowsOffset : Nat
deriving DecidableEq, Repr

/-- Row counts are stored for more than one DP rank. -/
def ArenaGeometry.dpRankCount (g : ArenaGeometry) : Nat :=
  if g.atnDpSize = 1 then 0 else g.atnDpSize

namespace ArenaLayout

/-- `ArenaLayout::create`; `none` where it throws. -/
def create (types : ArenaTypes) (g : ArenaGeometry) : Option ArenaLayout :=
  if g.payloadRowCapacity = 0 ∨ g.hiddenSize = 0 then none
  else
    g.payloadDtype.elementSize.bind fun elementSize =>
      if ¬(g.atnTpSize ≠ 0 ∧ g.atnTpRank < g.atnTpSize) ∨ ¬(g.atnDpSize ≠ 0 ∧ g.atnDpRank < g.atnDpSize) then none
      else
        (checkedProd [g.hiddenSize, elementSize]).bind fun payloadRowBytes =>
          (checkedProd [g.payloadRowCapacity, payloadRowBytes]).bind fun bytes =>
            (regions types bytes g.dpRankCount).map fun R =>
              { toArenaGeometry := g
                header :=
                  { magic := transportArenaMagic
                    abiVersion := abiVersion
                    layoutSize := types.arenaLayout.size
                    totalBytes := R.totalBytes
                    stateOffset := (R.region .state).offset }
                payloadRowBytes
                mailboxOffset := (R.region .mailbox).offset
                inputPayloadOffset := (R.region .inputPayload).offset
                outputPayloadOffset := (R.region .outputPayload).offset
                dpRankPayloadRowsOffset :=
                  if g.dpRankCount = 0 then 0 else (R.region .dpRankPayloadRows).offset }

/-- `ArenaLayout::validate`; `false` where it throws. -/
def validate (types : ArenaTypes) (l : ArenaLayout) : Bool :=
  l.header.magic = transportArenaMagic && l.header.abiVersion = abiVersion &&
    l.header.layoutSize = types.arenaLayout.size && (l.payloadRowCapacity ≠ 0 && l.hiddenSize ≠ 0) &&
    (l.atnTpSize ≠ 0 && l.atnTpRank < l.atnTpSize) && (l.atnDpSize ≠ 0 && l.atnDpRank < l.atnDpSize) &&
    l.payloadDtype.elementSize.any fun elementSize =>
      (checkedProd [l.hiddenSize, elementSize]).any fun expectedPayloadRowBytes =>
        (checkedProd [l.payloadRowCapacity, expectedPayloadRowBytes]).any fun bytes =>
          (regions types bytes l.dpRankCount).any fun R =>
            l.payloadRowBytes = expectedPayloadRowBytes && l.header.totalBytes = R.totalBytes &&
              l.header.stateOffset = (R.region .state).offset && l.mailboxOffset = (R.region .mailbox).offset &&
              l.inputPayloadOffset = (R.region .inputPayload).offset &&
              l.outputPayloadOffset = (R.region .outputPayload).offset &&
              l.dpRankPayloadRowsOffset = (if l.dpRankCount = 0 then 0 else (R.region .dpRankPayloadRows).offset)

/-! ## Accessors -/

section Accessors

variable (types : ArenaTypes) (l : ArenaLayout)

/-- What the accessors address. -/
inductive Object where
  | layout
  | state
  | mailbox
  | inputPayload
  | outputPayload
  | dpRankPayloadRows
deriving DecidableEq, Repr

def Object.region : Object → TransportRegion
  | .layout => .layout
  | .state => .state
  | .mailbox => .mailbox
  | .inputPayload => .inputPayload
  | .outputPayload => .outputPayload
  | .dpRankPayloadRows => .dpRankPayloadRows

/-- `pointer_at` of the first object, with the bytes of the span that starts there. -/
def pointerAt (offset bytes : Nat) : Extent :=
  ⟨wrap offset, bytes⟩

/-- The bytes that an accessor of the device returns; none is an empty span. -/
def extent : Object → Option Extent
  | .layout => some ⟨0, types.arenaLayout.size⟩
  | .state => some (pointerAt l.header.stateOffset types.arenaState.size)
  | .mailbox => some (pointerAt l.mailboxOffset types.mailbox.size)
  | .inputPayload => some (pointerAt l.inputPayloadOffset (wrap (l.payloadRowCapacity * l.payloadRowBytes)))
  | .outputPayload => some (pointerAt l.outputPayloadOffset (wrap (l.payloadRowCapacity * l.payloadRowBytes)))
  | .dpRankPayloadRows =>
    if l.dpRankPayloadRowsOffset = 0 then none
    else some (pointerAt l.dpRankPayloadRowsOffset (l.atnDpSize * types.uint32.size))

/-- The offset that the root stores for a region. -/
def offset : TransportRegion → Nat
  | .layout => 0
  | .state => l.header.stateOffset
  | .mailbox => l.mailboxOffset
  | .inputPayload => l.inputPayloadOffset
  | .outputPayload => l.outputPayloadOffset
  | .dpRankPayloadRows => l.dpRankPayloadRowsOffset

end Accessors

/-! ## Safety -/

section Safety

variable {types : ArenaTypes} {g : ArenaGeometry} {l : ArenaLayout} {R : Regions TransportRegion}

/-- What `create` returns is the root over planned regions. -/
structure Planned (types : ArenaTypes) (l : ArenaLayout) (bytes : Nat) (R : Regions TransportRegion) : Prop where
  regions : regions types bytes l.dpRankCount = some R
  bytes : l.payloadRowCapacity * l.payloadRowBytes = bytes
  total : l.header.totalBytes = R.totalBytes
  offset : ∀ r, r ≠ .dpRankPayloadRows ∨ l.dpRankCount ≠ 0 → l.offset r = (R.region r).offset
  unstored : l.dpRankCount = 0 → l.dpRankPayloadRowsOffset = 0
  validate : l.validate types

theorem create_planned (created : create types g = some l) : ∃ bytes R, Planned types l bytes R := by
  unfold create at created
  split at created
  · cases created
  · rename_i positive
    rw [not_or] at positive
    obtain ⟨elementSize, supported, created⟩ := Option.bind_eq_some_iff.mp created
    split at created
    · cases created
    · rename_i topology
      rw [not_or, not_not, not_not] at topology
      simp only [Option.bind_eq_some_iff, Option.map_eq_some_iff] at created
      obtain ⟨rowBytes, rowProduct, bytes, product, R, planned, rfl⟩ := created
      refine ⟨bytes, R, planned, ?_, rfl, ?_, fun none => if_pos none, ?_⟩
      · rw [(checkedProd_eq_some product).1, List.prod_cons, List.prod_singleton]
      · intro r stored
        cases r with
        | layout => exact (Regions.create_first planned).symm
        | dpRankPayloadRows =>
          have used := stored.resolve_left fun other => other rfl
          exact if_neg used
        | _ => rfl
      · simp [validate, supported, rowProduct, product, planned, positive, topology]

/-- The device reads and writes each region from its start to its end. -/
theorem extent_eq {bytes : Nat} (planned : Planned types l bytes R) {x : Object} {e : Extent}
    (accessed : l.extent types x = some e) : e = (R.region x.region).extent := by
  have safe := regions_safe planned.regions
  have specified := safe.specified x.region
  have inside := safe.inside x.region
  have bounded := safe.bounded
  have stored := planned.offset x.region
  simp only [LayoutRegion.extent, Extent.stop] at inside ⊢
  have offsetSmall : (R.region x.region).offset < wordLimit := by omega
  have bytesSmall : (R.region x.region).bytes < wordLimit := by omega
  cases x with
  | layout =>
    cases accessed
    have start := stored (.inl (by decide))
    have size := congrArg LayoutRegionSpec.byteCount (Option.some.inj specified)
    exact congrArg₂ Extent.mk start size
  | state | mailbox =>
    cases accessed
    have start := stored (.inl (by decide))
    have size := congrArg LayoutRegionSpec.byteCount (Option.some.inj specified)
    exact congrArg₂ Extent.mk ((wrap_eq (Nat.lt_of_le_of_lt (Nat.le_of_eq start) offsetSmall)).trans start) size
  | inputPayload | outputPayload =>
    cases accessed
    have start := stored (.inl (by decide))
    have size := congrArg LayoutRegionSpec.byteCount (Option.some.inj specified)
    rw [pointerAt, planned.bytes]
    exact congrArg₂ Extent.mk ((wrap_eq (Nat.lt_of_le_of_lt (Nat.le_of_eq start) offsetSmall)).trans start)
      ((wrap_eq (Nat.lt_of_le_of_lt (Nat.le_of_eq size) bytesSmall)).trans size)
  | dpRankPayloadRows =>
    simp only [extent, Option.ite_none_left_eq_some, Option.some.injEq] at accessed
    obtain ⟨used, rfl⟩ := accessed
    have rows : l.dpRankCount ≠ 0 := fun none => used (planned.unstored none)
    have start := stored (.inr rows)
    have size := LayoutRegionSpec.array_bytes specified
    have count : l.dpRankCount = l.atnDpSize := by
      rw [ArenaGeometry.dpRankCount] at rows ⊢
      split
      · rename_i one
        rw [if_pos one] at rows
        exact absurd rfl rows
      · rfl
    rw [pointerAt, ← count]
    exact congrArg₂ Extent.mk ((wrap_eq (Nat.lt_of_le_of_lt (Nat.le_of_eq start) offsetSmall)).trans start) size.symm

/-- Different objects have different bytes. -/
theorem extents_disjoint {bytes : Nat} (planned : Planned types l bytes R) {x y : Object} (differs : x ≠ y)
    {e f : Extent} (accessed : l.extent types x = some e) (accessed' : l.extent types y = some f) : e.Disjoint f := by
  rw [extent_eq planned accessed, extent_eq planned accessed']
  apply (regions_safe planned.regions).disjoint
  intro same
  apply differs
  cases x <;> cases y <;> first | rfl | cases same

/-- The root is valid, its regions are aligned, disjoint and inside the arena, and the
device reads and writes different objects at different bytes of their regions. -/
structure Safe (types : ArenaTypes) (l : ArenaLayout) (R : Regions TransportRegion) : Prop where
  validate : l.validate types
  total : l.header.totalBytes = R.totalBytes
  regions : R.Safe (spec types (l.payloadRowCapacity * l.payloadRowBytes) l.dpRankCount)
  offset : ∀ r, (R.region r).bytes ≠ 0 → l.offset r = (R.region r).offset
  within : ∀ x e, l.extent types x = some e → e.Within (R.region x.region).extent
  disjoint : ∀ x y e f, x ≠ y → l.extent types x = some e → l.extent types y = some f → e.Disjoint f

theorem create_safe (created : create types g = some l) : ∃ R, l.Safe types R := by
  obtain ⟨bytes, R, planned⟩ := create_planned created
  have safe := regions_safe planned.regions
  refine ⟨R, planned.validate, planned.total, ?_, ?_, ?_, ?_⟩
  · rw [planned.bytes]
    exact safe
  · intro r used
    apply planned.offset
    by_cases rows : r = .dpRankPayloadRows
    · right
      intro none
      apply used
      subst rows
      have bytes := LayoutRegionSpec.array_bytes (safe.specified .dpRankPayloadRows)
      rw [none, Nat.zero_mul] at bytes
      exact bytes
    · exact .inl rows
  · intro x e accessed
    rw [extent_eq planned accessed]
    exact Extent.Within.refl _
  · intro x y e f differs accessed accessed'
    exact extents_disjoint planned differs accessed accessed'

end Safety

end ArenaLayout

end CrossPool.Transport.Storage
