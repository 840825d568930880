import CrossPool.Placement.Presence

/-!
# The values that a placement induces

Every presence, rounding and stage has one value at the counts of a placement, and the
constraints that define the variables hold of these values.
-/

namespace CrossPool.Placement

open FfnAgent (mib)

section Induced

variable {ι : Type} [DecidableEq ι] {request : Request ι} {placement : Nat → Nat → List Nat} {agent : Nat}
  {contract : FfnExecutionContract}

/-- The counts that a placement induces. -/
def Request.induces (request : Request ι) (placement : Nat → Nat → List Nat) (agent classIndex rank : Nat) : Int :=
  match request.classes[classIndex]? with
  | none => 0
  | some layerClass => placed (layerClass.layerIndices.map (placement layerClass.modelIndex)) rank agent

theorem Request.induces_counts (request : Request ι) (placement : Nat → Nat → List Nat) (agent : Nat) :
    request.Counts placement agent (request.induces placement agent) := by
  intro classIndex layerClass listed rank _
  rw [Request.induces, listed]

def mibOf (bytes : Int) : Int :=
  (bytes + mib - 1) / mib

theorem mibOf_covers (bytes : Int) : Request.CoversMib bytes (mibOf bytes) := by
  simp only [Request.CoversMib, mibOf, mib]
  omega

/-- The presences that counts induce, and with them the widest router. -/
def Request.presences (request : Request ι) (contract : FfnExecutionContract) (assigned : Nat → Nat → Int) : StageValues :=
  let signaturePresent (index : Nat) : Bool :=
    match request.allSignatures[index]? with
    | none => false
    | some signature => decide (1 ≤ request.users assigned signature)
  let someSignature (holds : ExecutionSignature ι → Bool) : Bool :=
    request.allSignatures.zipIdx.any fun (signature, index) => holds signature && signaturePresent index
  let routingElements :=
    (0 :: (request.allSignatures.zipIdx.filter fun entry => entry.1.routes).map fun (signature, index) =>
      signature.routingElements * (signaturePresent index).toNat).max?.getD 0
  { signaturePresent
    weightPairPresent := fun index =>
      match request.captureWeightPairKeys[index]? with
      | none => false
      | some key => someSignature fun signature => signature.captureWeightPairKey = key
    resourcePresent := fun index =>
      match (request.resources contract)[index]? with
      | none => false
      | some group => group.signatureIndices.any signaturePresent
    densePresent := someSignature fun signature => signature.isDense
    moePresent := someSignature fun signature => !signature.isDense
    routingElements
    routingRecordBufferBytes := request.routingBytes routingElements
    packedMib := 0
    retainedMib := 0
    graphCaptureMib := 0
    stage := fun _ => 0
    peak := 0
    headroom := 0 }

/-- The presences with the quantities in MiB. -/
def Request.roundings (request : Request ι) (contract : FfnExecutionContract) (assigned : Nat → Nat → Int) : StageValues :=
  let presences := request.presences contract assigned
  let amounts := request.amounts contract assigned presences
  { presences with
    packedMib := mibOf amounts.weightBytes
    retainedMib := mibOf (amounts.weightBytes + amounts.resourceBytes)
    graphCaptureMib := mibOf (amounts.weightBytes + amounts.resourceBytes + amounts.captureBytes) }

/-- The values that counts induce on an FfnAgent. -/
def Request.induced (request : Request ι) (contract : FfnExecutionContract) (assigned : Nat → Nat → Int) (agent : Nat) :
    StageValues :=
  let roundings := request.roundings contract assigned
  let stage := request.stageExpression contract assigned roundings (agent = 0)
  let peak := (StartupPoint.all.map stage).max?.getD 0
  { roundings with
    stage
    peak
    headroom := request.freeMemoryBytes.getD agent 0 - request.extraMarginBytes - peak }

/-- The amounts are those of the presences. -/
theorem amounts_roundings (assigned : Nat → Nat → Int) (packedMib retainedMib graphCaptureMib : Int) (values : StageValues) :
    request.amounts contract assigned { values with packedMib, retainedMib, graphCaptureMib } =
      request.amounts contract assigned values :=
  rfl

theorem amounts_stages (assigned : Nat → Nat → Int) (stage : StartupPoint → Int) (peak headroom : Int)
    (values : StageValues) :
    request.amounts contract assigned { values with stage, peak, headroom } = request.amounts contract assigned values :=
  rfl

/-- The stage expressions are those of the presences and roundings. -/
theorem stageExpression_stages (assigned : Nat → Nat → Int) (stage : StartupPoint → Int) (peak headroom : Int)
    (values : StageValues) (coordinator : Bool) (point : StartupPoint) :
    request.stageExpression contract assigned { values with stage, peak, headroom } coordinator point =
      request.stageExpression contract assigned values coordinator point := by
  simp only [Request.stageExpression, Request.physicalCost, Request.overheadCost, amounts_stages]
  rfl

theorem max?_getD_of_ne_nil {α : Type} [LinearOrder α] {items : List α} (some' : items ≠ []) (fallback : α) :
    items.max? = some (items.max?.getD fallback) := by
  cases found : items.max? with
  | none => exact absurd (List.max?_eq_none_iff.mp found) some'
  | some most => rfl

/-- The induced values have their definitions. -/
theorem Request.induced_defined (placed' : request.Placed placement) (contract : FfnExecutionContract) (agent : Nat) :
    request.StageDefined contract (request.induces placement agent)
      (request.induced contract (request.induces placement agent) agent) agent := by
  have users (signature : ExecutionSignature ι) : 0 ≤ request.users (request.induces placement agent) signature := by
    rw [Request.users, overRows_eq placed' (request.induces_counts placement agent)]
    apply List.sum_nonneg
    intro value member
    obtain ⟨layer, -, rfl⟩ := List.mem_map.mp member
    change 0 ≤ (decide (signature ∈ layer.executionSignatures)).toInt
    cases decide (signature ∈ layer.executionSignatures) <;> decide
  constructor
  case present =>
    intro index signature listed present
    simpa [Request.induced, Request.roundings, Request.presences, listed] using present
  case absent =>
    intro index signature listed absent
    have few : ¬1 ≤ request.users (request.induces placement agent) signature := by
      simpa [Request.induced, Request.roundings, Request.presences, listed] using absent
    have least := users signature
    omega
  case pairs =>
    intro index key listed
    simp only [Request.induced, Request.roundings, Request.presences, listed]
  case groups =>
    intro index group listed _
    simp only [Request.induced, Request.roundings, Request.presences, listed]
  case dense => rfl
  case moe => rfl
  case routing =>
    intro _
    constructor
    · exact max?_getD_of_ne_nil (List.cons_ne_nil _ _) 0
    · apply List.mem_map.mpr
      refine ⟨_, ?_, rfl⟩
      have widest := List.max?_mem (max?_getD_of_ne_nil (List.cons_ne_nil 0
        ((request.allSignatures.zipIdx.filter fun entry => entry.1.routes).map fun entry =>
          entry.1.routingElements *
            ((request.presences contract (request.induces placement agent)).signaturePresent entry.2).toNat)) 0)
      change (request.presences contract (request.induces placement agent)).routingElements ∈ _ at widest
      change (request.presences contract (request.induces placement agent)).routingElements ∈ _
      rcases List.mem_cons.mp widest with zero | member
      · exact List.mem_cons.mpr (.inl zero)
      · obtain ⟨⟨signature, index⟩, listed, wide⟩ := List.mem_map.mp member
        obtain ⟨listed, routes⟩ := List.mem_filter.mp listed
        rw [← wide]
        cases (request.presences contract (request.induces placement agent)).signaturePresent index with
        | false => exact List.mem_cons_self
        | true =>
          apply List.mem_cons_of_mem
          refine List.mem_map.mpr ⟨signature, List.mem_filter.mpr ⟨?_, routes⟩, (Nat.mul_one _).symm⟩
          exact List.mem_of_getElem? (List.mem_zipIdx_iff_getElem?.mp listed)
  case packed =>
    rw [Request.induced, amounts_stages, Request.roundings, amounts_roundings]
    exact mibOf_covers _
  case retained =>
    rw [Request.induced, amounts_stages, Request.roundings, amounts_roundings]
    exact mibOf_covers _
  case captured =>
    rw [Request.induced, amounts_stages, Request.roundings, amounts_roundings]
    exact mibOf_covers _
  case stage =>
    intro point
    rw [Request.induced, stageExpression_stages]
  case peak => exact max?_getD_of_ne_nil (List.cons_ne_nil _ _) 0
  case headroom => rfl

end Induced

end CrossPool.Placement
