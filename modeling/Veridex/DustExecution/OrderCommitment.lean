import Veridex.DustExecution.Arming
import Veridex.DustExecution.SigningCompiler
import Veridex.Lib.Keyed
import Veridex.Runtime.Evidence

/-!
# The compiled order and its commitment (`signing_compiler.py`, 183-422, `order_commitment.py`)

`compile` builds the order three times: as the message that is signed, as the wrapper that travels
unsigned, and as the body that is posted. The integrity commitment is the digest of the sixteen covered
fields of the body, drawn from its two levels into one dictionary (`extractCoveredFields`), after both
levels were held against the exact sets of their keys.

The digest is taken as given. A text of digits is asked for in the ASCII ones.

Results: `extractCoveredFields_ok`, `compile_ok`.
-/

namespace Veridex.DustExecution

open Veridex.Py Veridex.Lib Veridex.Runtime

/-! ## What is compiled -/

/-- The order type, as the wire names it. -/
def TimeInForce.text : TimeInForce → String
  | .fak => "FAK"
  | .fok => "FOK"
  | .gtc => "GTC"
  | .gtd => "GTD"

/-- `tif in _RESTING_ORDER_TYPES`. -/
def TimeInForce.isResting : TimeInForce → Bool
  | .gtc | .gtd => true
  | .fak | .fok => false

/-- `AdmittedPostRoundingIntent`. -/
structure AdmittedPostRoundingIntent where
  side : Side
  makerAmount : String
  takerAmount : String
  nativePrice : UnitPrice
  size : PyFloat
  tif : TimeInForce
  postOnly : Bool := false
  deferExec : Bool := false
  expiration : String := "0"

/-- `_non_negative_integer_string`. -/
def isDigits (value : String) : Bool := value ≠ "" && value.toList.all Char.isDigit

/-- `AdmittedPostRoundingIntent(...)`: the field validators. -/
def admitIntent (side : Side) (makerAmount takerAmount : String) (nativePrice size : PyFloat)
    (tif : TimeInForce) (postOnly deferExec : Bool) (expiration : String) :
    Except PyExc AdmittedPostRoundingIntent := do
  let nativePrice ← UnitPrice.ofFloat nativePrice
  if isDigits makerAmount && isDigits takerAmount && isDigits expiration then
    return ⟨side, makerAmount, takerAmount, nativePrice, size, tif, postOnly, deferExec, expiration⟩
  else .error ⟨.valueError, "amount/expiration must be a non-negative integer string"⟩

/-- `OrderMarket`. -/
structure OrderMarket where
  tokenId : String
  negRisk : Bool := false

/-- `_BYTES32_ZERO`. -/
def bytes32Zero : String := "0x0000000000000000000000000000000000000000000000000000000000000000"

/-- `SignerBinding`. -/
structure SignerBinding where
  salt : String
  maker : String
  owner : String
  timestamp : String
  signer : Option String := none
  signatureType : ℤ := 0
  metadata : String := bytes32Zero
  builder : String := bytes32Zero

/-! ## The covered fields of a body -/

/-- `_COVERED_IN_ORDER`, in the order of the signed struct, then the expiration. -/
def coveredInOrder : List String :=
  ["salt", "maker", "signer", "tokenId", "makerAmount", "takerAmount", "side", "signatureType",
    "timestamp", "metadata", "builder", "expiration"]

/-- `_COVERED_TOP_LEVEL`. -/
def coveredTopLevel : List String := ["orderType", "postOnly", "owner", "deferExec"]

/-- `sorted(_TOPLEVEL_REQUIRED)`. -/
def topLevelRequired : List String := ["deferExec", "order", "orderType", "owner", "postOnly"]

/-- `sorted(_ORDER_REQUIRED)`. -/
def orderRequired : List String :=
  ["builder", "expiration", "maker", "makerAmount", "metadata", "salt", "side", "signatureType",
    "signer", "takerAmount", "timestamp", "tokenId"]

/-- `_ORDER_ALLOWED`. -/
def orderAllowed : List String := "signature" :: orderRequired

/-- `type(v).__name__`. -/
def typeName : Decoded → String
  | .null => "NoneType"
  | .bool _ => "bool"
  | .int _ => "int"
  | .float _ => "float"
  | .str _ => "str"
  | .arr _ => "list"
  | .obj _ => "dict"

/-- `_keys`: the fields of an object. -/
def fieldsOf (label : String) : Decoded → Except PyExc (List (String × Decoded))
  | .obj fields => .ok fields
  | v => .error ⟨.failClosed, label ++ ": expected an object, got " ++ typeName v⟩

/-- One level of the exact set: the first key that is missing, then the first that is unknown. -/
def enforceLevel (required allowed : List String) (missing unknown : String → String)
    (fields : List (String × Decoded)) : Except PyExc Unit :=
  let keys := fields.map Prod.fst
  match required.find? fun key => key ∉ keys with
  | some key => .error ⟨.failClosed, missing key⟩
  | none =>
    match ((keys.filter fun key => key ∉ allowed).mergeSort fun a b => a ≤ b).head? with
    | some key => .error ⟨.failClosed, unknown key⟩
    | none => .ok ()

/-- `_enforce_exact_set`: the fields of the body and of its order. -/
def enforceExactSet (body : Decoded) :
    Except PyExc (List (String × Decoded) × List (String × Decoded)) := do
  let top ← fieldsOf "post_body" body
  enforceLevel topLevelRequired topLevelRequired
    (fun key => "post_body: missing required key " ++ pyRepr key)
    (fun key => "post_body: unknown top-level key " ++ pyRepr key ++ " (not in the V2 exact set)") top
  let order ← fieldsOf "post_body.order" ((top.lookup "order").getD .null)
  enforceLevel orderRequired orderAllowed
    (fun key => "post_body.order: missing required key " ++ pyRepr key)
    (fun key => "post_body.order: unknown key " ++ pyRepr key ++
      " (not in the V2 order wire exact set)") order
  return (top, order)

/-- The fields of some names. -/
def select (names : List String) (fields : List (String × Decoded)) : List (String × Decoded) :=
  names.map fun name => (name, (fields.lookup name).getD .null)

/-- `extract_covered_fields`. -/
def extractCoveredFields (body : Decoded) : Except PyExc Decoded := do
  let (top, order) ← enforceExactSet body
  return .obj (select coveredInOrder order ++ select coveredTopLevel top)

section Commitment

variable (format : Json.FloatFormat PyFloat) (sha256 : List Char → String)

/-- `integrity_commitment_over`. -/
def integrityCommitmentOver (body : Decoded) : Except PyExc String := do
  return sha256 (serializePayload format (← extractCoveredFields body))

/-- `CompiledSigningPayload`. -/
structure CompiledSigningPayload where
  canonicalV2TypedData : Value
  eip712Digest : String
  wireWrapper : Decoded
  integrityCommitmentHash : String
  venueOrderKey : String
  postBody : Decoded

/-- `OrderSigningCommitment`, without the names of the covered fields. -/
structure OrderSigningCommitment where
  integrityCommitmentHash : String
  deriving DecidableEq

/-- `OrderSigningCommitment.from_payload`. -/
def OrderSigningCommitment.fromPayload (payload : CompiledSigningPayload) :
    Except PyExc OrderSigningCommitment := do
  let digest ← integrityCommitmentOver format sha256 payload.postBody
  if digest ≠ payload.integrityCommitmentHash then
    .error ⟨.failClosed,
      "integrity_commitment_hash drift between compiled payload and recomputed POST body"⟩
  else return ⟨digest⟩

/-- `verify_post_body_against_commitment`. -/
def verifyPostBodyAgainstCommitment (body : Decoded) (commitment : OrderSigningCommitment) :
    Except PyExc Unit := do
  let recomputed ← integrityCommitmentOver format sha256 body
  failClosedUnless (recomputed = commitment.integrityCommitmentHash) ("POST body byte-verify failed: " ++
    "recomputed integrity digest does not match the pre-sign commitment (a covered field was mutated " ++
    "between commit and submit)")

end Commitment

/-! ## The compiler -/

/-- `_V2_NEG_RISK_EXCHANGE` and `_V2_STANDARD_EXCHANGE`. -/
def verifyingContract (negRisk : Bool) : String :=
  if negRisk then "0xe2222d279d744050d28e00520010520000310F59"
  else "0xE111180000d2663C0091e4f400237545B87B996B"

/-- A side, as the signed struct has it. -/
def Side.abi : Side → ℤ
  | .buy => 0
  | .sell => 1

/-- A field of a struct type. -/
def structField (name type : String) : Value := .dict [("name", .str name), ("type", .str type)]

/-- The typed data over a message. -/
def typedDataOf (negRisk : Bool) (message : List (String × Value)) : Value :=
  .dict [
    ("primaryType", .str "Order"),
    ("types", .dict [
      ("EIP712Domain", .list [structField "name" "string", structField "version" "string",
        structField "chainId" "uint256", structField "verifyingContract" "address"]),
      ("Order", .list [structField "salt" "uint256", structField "maker" "address",
        structField "signer" "address", structField "tokenId" "uint256",
        structField "makerAmount" "uint256", structField "takerAmount" "uint256",
        structField "side" "uint8", structField "signatureType" "uint8",
        structField "timestamp" "uint256", structField "metadata" "bytes32",
        structField "builder" "bytes32"])]),
    ("domain", .dict [("name", .str "Polymarket CTF Exchange"), ("version", .str "2"),
      ("chainId", .int 137), ("verifyingContract", .str (verifyingContract negRisk))]),
    ("message", .dict message)]

section Compile

variable (intent : AdmittedPostRoundingIntent) (market : OrderMarket) (binding : SignerBinding)

/-- `binding.signer if binding.signer is not None else binding.maker`. -/
def SignerBinding.signerOrMaker : String := binding.signer.getD binding.maker

/-- `message`. -/
def signedMessage : List (String × Value) := [
  ("salt", .str binding.salt),
  ("maker", .str binding.maker),
  ("signer", .str binding.signerOrMaker),
  ("tokenId", .str market.tokenId),
  ("makerAmount", .str intent.makerAmount),
  ("takerAmount", .str intent.takerAmount),
  ("side", .int intent.side.abi),
  ("signatureType", .int binding.signatureType),
  ("timestamp", .str binding.timestamp),
  ("metadata", .str binding.metadata),
  ("builder", .str binding.builder)]

/-- `wire_wrapper`. -/
def wireWrapper : Decoded := .obj [
  ("expiration", .str intent.expiration),
  ("orderType", .str intent.tif.text),
  ("postOnly", .bool intent.postOnly),
  ("owner", .str binding.owner),
  ("deferExec", .bool intent.deferExec)]

/-- The `order` of the body. -/
def wireOrder : List (String × Decoded) := [
  ("salt", .str binding.salt),
  ("maker", .str binding.maker),
  ("signer", .str binding.signerOrMaker),
  ("tokenId", .str market.tokenId),
  ("makerAmount", .str intent.makerAmount),
  ("takerAmount", .str intent.takerAmount),
  ("side", .str intent.side.text),
  ("expiration", .str intent.expiration),
  ("timestamp", .str binding.timestamp),
  ("metadata", .str binding.metadata),
  ("builder", .str binding.builder),
  ("signatureType", .int binding.signatureType)]

/-- `post_body`. -/
def postBody : List (String × Decoded) := [
  ("order", .obj (wireOrder intent market binding)),
  ("owner", .str binding.owner),
  ("orderType", .str intent.tif.text),
  ("postOnly", .bool intent.postOnly),
  ("deferExec", .bool intent.deferExec)]

/-- `PolymarketV2SigningCompiler.compile`. -/
def compile (format : Json.FloatFormat PyFloat) (sha256 : List Char → String)
    (textOf : Value → String) : Except PyExc CompiledSigningPayload := do
  failClosedUnless (binding.signatureType = 0) ("signatureType " ++ toString binding.signatureType ++
    " is not the R4-A EOA type (0); POLY_PROXY/GNOSIS/1271 are out of scope (fail-closed)")
  failClosedUnless (!intent.postOnly || intent.tif.isResting) ("postOnly is valid only with GTC/GTD, " ++
    "not orderType " ++ pyRepr intent.tif.text ++ " (§6, fail-closed)")
  let typedData := typedDataOf market.negRisk (signedMessage intent market binding)
  let eip712Digest ← orderHashFromTypedData textOf typedData
  let body := .obj (postBody intent market binding)
  let integrityCommitmentHash ← integrityCommitmentOver format sha256 body
  return {
    canonicalV2TypedData := typedData
    eip712Digest
    wireWrapper := wireWrapper intent binding
    integrityCommitmentHash
    venueOrderKey := eip712Digest
    postBody := body }

end Compile

/-! ## The exact sets -/

/-- The keys of a dictionary are what may be looked up in it. -/
theorem mem_keys {fields : List (String × Decoded)} {name : String} :
    name ∈ fields.map Prod.fst ↔ (fields.lookup name).isSome = true := by
  rw [List.lookup_isSome_iff]
  simp only [List.mem_map, beq_iff_eq]
  exact ⟨fun ⟨field, hmem, hname⟩ => ⟨field, hmem, hname.symm⟩,
    fun ⟨field, hmem, hname⟩ => ⟨field, hmem, hname.symm⟩⟩

/-- A level is accepted when it holds all that is required, and nothing that is not allowed. -/
theorem enforceLevel_ok {required allowed : List String} {missing unknown : String → String}
    {fields : List (String × Decoded)} :
    enforceLevel required allowed missing unknown fields = .ok () ↔
      (∀ name ∈ required, (fields.lookup name).isSome = true) ∧
        ∀ name, (fields.lookup name).isSome = true → name ∈ allowed := by
  unfold enforceLevel
  dsimp only
  cases hmissing : required.find? fun key => key ∉ fields.map Prod.fst with
  | some key =>
    have hkey := List.find?_some hmissing
    refine iff_of_false (by simp) fun h => ?_
    simp only [decide_eq_true_eq] at hkey
    exact hkey (mem_keys.mpr (h.1 key (List.mem_of_find?_eq_some hmissing)))
  | none =>
    have hall : ∀ name ∈ required, (fields.lookup name).isSome = true := fun name hname => by
      have hnot := List.find?_eq_none.mp hmissing name hname
      simp only [decide_eq_true_eq, not_not] at hnot
      exact mem_keys.mp hnot
    rw [and_iff_right hall]
    have hempty : (((fields.map Prod.fst).filter fun key => key ∉ allowed).mergeSort
        fun a b => a ≤ b).head? = none ↔ ∀ name, (fields.lookup name).isSome = true → name ∈ allowed := by
      rw [List.head?_eq_none_iff, ← List.length_eq_zero_iff, List.length_mergeSort,
        List.length_eq_zero_iff, List.filter_eq_nil_iff]
      simp only [decide_eq_true_eq, not_not]
      exact forall_congr' fun name => imp_congr_left mem_keys
    rw [← hempty]
    cases (((fields.map Prod.fst).filter fun key => key ∉ allowed).mergeSort
        fun a b => a ≤ b).head? with
    | some key => simp
    | none => simp

/-- A body that keeps to the exact sets, with the fields of its two levels. -/
structure ExactSet (body : Decoded) (top order : List (String × Decoded)) : Prop where
  body_eq : body = .obj top
  order_eq : top.lookup "order" = some (.obj order)
  top_required : ∀ name ∈ topLevelRequired, (top.lookup name).isSome = true
  top_allowed : ∀ name, (top.lookup name).isSome = true → name ∈ topLevelRequired
  order_required : ∀ name ∈ orderRequired, (order.lookup name).isSome = true
  order_allowed : ∀ name, (order.lookup name).isSome = true → name ∈ orderAllowed

theorem fieldsOf_ok {label : String} {v : Decoded} {fields : List (String × Decoded)} :
    fieldsOf label v = .ok fields ↔ v = .obj fields := by
  cases v <;> simp [fieldsOf]

theorem enforceExactSet_ok {body : Decoded} {top order : List (String × Decoded)} :
    enforceExactSet body = .ok (top, order) ↔ ExactSet body top order := by
  unfold enforceExactSet
  constructor
  · intro h
    obtain ⟨top', hbody, h⟩ := bind_eq_ok.mp h
    obtain ⟨_, htop, h⟩ := bind_eq_ok.mp h
    obtain ⟨order', horder, h⟩ := bind_eq_ok.mp h
    obtain ⟨_, hlevel, h⟩ := bind_eq_ok.mp h
    obtain ⟨rfl, rfl⟩ := Prod.mk.inj (Except.ok.inj h)
    obtain ⟨htopRequired, htopAllowed⟩ := enforceLevel_ok.mp htop
    obtain ⟨horderRequired, horderAllowed⟩ := enforceLevel_ok.mp hlevel
    refine ⟨fieldsOf_ok.mp hbody, ?_, htopRequired, htopAllowed, horderRequired, horderAllowed⟩
    obtain ⟨value, hvalue⟩ := Option.isSome_iff_exists.mp (htopRequired "order" (by decide))
    have hobj := fieldsOf_ok.mp horder
    rw [hvalue, Option.getD_some] at hobj
    rw [hvalue, hobj]
  · intro h
    refine bind_eq_ok.mpr ⟨top, fieldsOf_ok.mpr h.body_eq, bind_eq_ok.mpr ⟨(),
      enforceLevel_ok.mpr ⟨h.top_required, h.top_allowed⟩, bind_eq_ok.mpr ⟨order, ?_,
      bind_eq_ok.mpr ⟨(), enforceLevel_ok.mpr ⟨h.order_required, h.order_allowed⟩, rfl⟩⟩⟩⟩
    rw [h.order_eq]
    rfl

/-- The sixteen covered fields of two levels. -/
def coveredFields (top order : List (String × Decoded)) : List (String × Decoded) :=
  select coveredInOrder order ++ select coveredTopLevel top

/-- **The covered fields** are those of a body that keeps to the exact sets. -/
theorem extractCoveredFields_ok {body covered : Decoded} :
    extractCoveredFields body = .ok covered ↔
      ∃ top order, ExactSet body top order ∧ covered = .obj (coveredFields top order) := by
  unfold extractCoveredFields
  rw [bind_eq_ok]
  constructor
  · rintro ⟨⟨top, order⟩, hset, h⟩
    exact ⟨top, order, enforceExactSet_ok.mp hset, (Except.ok.inj h).symm⟩
  · rintro ⟨top, order, hset, rfl⟩
    exact ⟨(top, order), enforceExactSet_ok.mpr hset, rfl⟩

theorem lookup_select (names : List String) (fields : List (String × Decoded)) (name : String) :
    (select names fields).lookup name =
      if name ∈ names then some ((fields.lookup name).getD .null) else none := by
  induction names with
  | nil => rfl
  | cons first names ih =>
    rw [select, List.map_cons, List.lookup_cons]
    by_cases h : name = first
    · simp [h]
    · rw [beq_false_of_ne h]
      simpa [h, select] using ih

/-- What a covered field holds: the two levels share no name. -/
theorem lookup_coveredFields (top order : List (String × Decoded)) (name : String) :
    (coveredFields top order).lookup name =
      if name ∈ coveredInOrder then some ((order.lookup name).getD .null)
      else if name ∈ coveredTopLevel then some ((top.lookup name).getD .null) else none := by
  rw [coveredFields, List.lookup_append, lookup_select, lookup_select]
  by_cases h : name ∈ coveredInOrder
  · simp [h]
  · simp [h]

/-! ## What is compiled -/

section Compiled

variable {format : Json.FloatFormat PyFloat} {sha256 : List Char → String} {textOf : Value → String}
  {intent : AdmittedPostRoundingIntent} {market : OrderMarket} {binding : SignerBinding}
  {payload : CompiledSigningPayload}

/-- A compiled body keeps to the exact sets. -/
theorem exactSet_postBody : ExactSet (.obj (postBody intent market binding))
    (postBody intent market binding) (wireOrder intent market binding) where
  body_eq := rfl
  order_eq := rfl
  top_required := by simp [topLevelRequired, postBody, List.lookup]
  top_allowed name h := by
    rw [← mem_keys] at h
    revert h
    simp only [postBody, topLevelRequired, List.map_cons, List.map_nil, List.mem_cons,
      List.not_mem_nil]
    tauto
  order_required := by simp [orderRequired, wireOrder, List.lookup]
  order_allowed name h := by
    rw [← mem_keys] at h
    revert h
    simp only [wireOrder, orderAllowed, orderRequired, List.map_cons, List.map_nil, List.mem_cons,
      List.not_mem_nil]
    tauto

/-- The commitment of a compiled body. -/
theorem integrityCommitmentOver_postBody :
    integrityCommitmentOver format sha256 (.obj (postBody intent market binding)) =
      .ok (sha256 (serializePayload format (.obj (coveredFields (postBody intent market binding)
        (wireOrder intent market binding))))) :=
  bind_eq_ok.mpr ⟨_, extractCoveredFields_ok.mpr ⟨_, _, exactSet_postBody, rfl⟩, rfl⟩

/-- **A compiled payload**: the three copies of the order, and the two digests. -/
theorem compile_ok (h : compile intent market binding format sha256 textOf = .ok payload) :
    binding.signatureType = 0 ∧
      payload.canonicalV2TypedData = typedDataOf market.negRisk (signedMessage intent market binding) ∧
      orderHashFromTypedData textOf payload.canonicalV2TypedData = .ok payload.venueOrderKey ∧
      payload.postBody = .obj (postBody intent market binding) ∧
      integrityCommitmentOver format sha256 payload.postBody = .ok payload.integrityCommitmentHash := by
  obtain ⟨⟨⟩, htype, h⟩ := bind_eq_ok.mp h
  obtain ⟨-, -, h⟩ := bind_eq_ok.mp h
  obtain ⟨digest, hdigest, h⟩ := bind_eq_ok.mp h
  obtain ⟨commitment, hcommitment, h⟩ := bind_eq_ok.mp h
  obtain rfl := Except.ok.inj h
  exact ⟨by simpa using htype, rfl, hdigest, rfl, hcommitment⟩

theorem isOk_iff {α : Type} {x : Except PyExc α} : x.isOk = true ↔ ∃ a, x = .ok a := by
  cases x <;> simp [Except.isOk, Except.toBool]

/-- Each field of the order has a word. -/
def encodes (intent : AdmittedPostRoundingIntent) (market : OrderMarket) (binding : SignerBinding) :
    Bool :=
  ([binding.salt, market.tokenId, intent.makerAmount, intent.takerAmount, binding.timestamp].all
      fun field => (u256 (.str field)).isOk) &&
    ([binding.maker, binding.signerOrMaker].all fun field => (addr32 field).isOk) &&
    [binding.metadata, binding.builder].all fun field => (bytes32 field).isOk

variable (textOf) in
theorem domainPreimage_typedDataOf (negRisk : Bool) : ∃ preimage, domainPreimage textOf
    (.dict [("name", .str "Polymarket CTF Exchange"), ("version", .str "2"), ("chainId", .int 137),
      ("verifyingContract", .str (verifyingContract negRisk))]) = .ok preimage := by
  obtain ⟨chain, hchain⟩ := isOk_iff.mp (by decide +kernel : (u256 (.int 137)).isOk = true)
  have hcontract : (addr32 (verifyingContract negRisk)).isOk = true := by
    cases negRisk <;> decide +kernel
  obtain ⟨contract, hcontract⟩ := isOk_iff.mp hcontract
  exact ⟨_, bind_eq_ok.mpr ⟨_, rfl, bind_eq_ok.mpr ⟨_, rfl, bind_eq_ok.mpr ⟨_, rfl,
    bind_eq_ok.mpr ⟨chain, hchain, bind_eq_ok.mpr ⟨_, rfl,
      bind_eq_ok.mpr ⟨contract, hcontract, rfl⟩⟩⟩⟩⟩⟩⟩

/-- **An order compiles** when its fields have words, under the one signature type, and rests only
where it may. -/
theorem exists_compiled (hencodes : encodes intent market binding = true)
    (htype : binding.signatureType = 0) (hrests : intent.postOnly = true → intent.tif.isResting = true) :
    ∃ payload, compile intent market binding format sha256 textOf = .ok payload := by
  simp only [encodes, Bool.and_eq_true, List.all_cons, List.all_nil, and_true, isOk_iff] at hencodes
  obtain ⟨⟨⟨⟨salt, hsalt⟩, ⟨token, htoken⟩, ⟨made, hmade⟩, ⟨taken, htaken⟩, ⟨time, htime⟩⟩,
    ⟨maker, hmaker⟩, ⟨signer, hsigner⟩⟩, ⟨metadata, hmetadata⟩, ⟨builder, hbuilder⟩⟩ := hencodes
  obtain ⟨side, hside⟩ : ∃ word, u256 (.int intent.side.abi) = .ok word := by
    cases intent.side <;> exact isOk_iff.mp (by decide +kernel)
  obtain ⟨kind, hkind⟩ : ∃ word, u256 (.int binding.signatureType) = .ok word := by
    rw [htype]
    exact isOk_iff.mp (by decide +kernel)
  obtain ⟨domain, hdomain⟩ := domainPreimage_typedDataOf textOf market.negRisk
  have hwords : structWords textOf (.dict (signedMessage intent market binding)) =
      .ok (salt ++ maker ++ signer ++ token ++ made ++ taken ++ side ++ kind ++ time ++ metadata ++
        builder) := by
    simp [structWords, itemText, item, signedMessage, List.lookup, Value.text, bind, Except.bind, pure,
      Except.pure, hsalt, hmaker, hsigner, htoken, hmade, htaken, hside, hkind, htime, hmetadata,
      hbuilder]
  have hpreimage : structPreimage textOf (.dict (signedMessage intent market binding)) = .ok _ :=
    bind_eq_ok.mpr ⟨_, hwords, rfl⟩
  refine ⟨_, bind_eq_ok.mpr ⟨(), ?_, bind_eq_ok.mpr ⟨(), ?_, bind_eq_ok.mpr ⟨_,
    bind_eq_ok.mpr ⟨_, bind_eq_ok.mpr ⟨_, rfl, bind_eq_ok.mpr ⟨_, rfl, bind_eq_ok.mpr ⟨_, hdomain,
      bind_eq_ok.mpr ⟨_, hpreimage, rfl⟩⟩⟩⟩, rfl⟩, bind_eq_ok.mpr ⟨_, integrityCommitmentOver_postBody,
    rfl⟩⟩⟩⟩⟩
  · simpa using htype
  · cases hpost : intent.postOnly with
    | false => rfl
    | true => simp [hrests hpost]

/-- The commitment of a compiled payload is the digest it carries. -/
theorem fromPayload_compiled (h : compile intent market binding format sha256 textOf = .ok payload) :
    OrderSigningCommitment.fromPayload format sha256 payload =
      .ok ⟨payload.integrityCommitmentHash⟩ := by
  obtain ⟨-, -, -, -, hcommitment⟩ := compile_ok h
  refine bind_eq_ok.mpr ⟨_, hcommitment, ?_⟩
  rw [if_neg (not_not_intro rfl)]
  rfl

end Compiled

end Veridex.DustExecution

/-!
## What the commitment commits to (`verify_post_body_against_commitment`, order_commitment.py)

The byte-verify compares key sets and one digest of a flat dictionary. The flat dictionary forgets which
level a field came from and the order of the fields, and its digest is of a text. None of it loses
anything: the two levels share no name, the exact sets fix which names there are, and the canonical text
is one for each dictionary. `CompiledSigningPayload.Posts` is what is left, a body that is the compiled
one apart from a signature.
-/

namespace Veridex.DustExecution

open Veridex.Py Veridex.Lib Veridex.Runtime

/-! ### A body apart from its signature -/

/-- The order of a body without its signature. -/
def withoutSignature : Decoded → Decoded
  | .obj top =>
    match top.lookup "order" with
    | some (.obj order) => .obj (("order", .obj (order.filter fun field => field.1 ≠ "signature")) ::
        top.filter fun field => field.1 ≠ "order")
    | _ => .obj top
  | v => v

/-- A body that is the compiled one, apart from a signature in its order. The order of the fields of a
dictionary does not count. -/
def CompiledSigningPayload.Posts (payload : CompiledSigningPayload) (body : Decoded) : Prop :=
  Json.sorted (withoutSignature body) = Json.sorted payload.postBody

variable {top order top' order' : List (String × Decoded)} {body body' : Decoded}

/-- Two levels that hold the same, but for a signature. -/
structure SameOrder (top order top' order' : List (String × Decoded)) : Prop where
  order : ∀ name, name ≠ "signature" →
    (order.lookup name).map Json.sorted = (order'.lookup name).map Json.sorted
  top : ∀ name, name ≠ "order" →
    (top.lookup name).map Json.sorted = (top'.lookup name).map Json.sorted

theorem withoutSignature_obj (h : top.lookup "order" = some (.obj order)) :
    withoutSignature (.obj top) =
      .obj (("order", .obj (order.filter fun field => field.1 ≠ "signature")) ::
        top.filter fun field => field.1 ≠ "order") := by
  rw [withoutSignature, h]

/-- **A body apart from its signature**, against one that has none, level by level. -/
theorem sorted_withoutSignature_iff (h : top.lookup "order" = some (.obj order))
    (h' : top'.lookup "order" = some (.obj order')) (hunsigned : order'.lookup "signature" = none) :
    Json.sorted (withoutSignature (.obj top)) = Json.sorted (.obj top') ↔
      SameOrder top order top' order' := by
  have hfilter (name : String) : (order.filter fun field => field.1 ≠ "signature").lookup name =
      if name ≠ "signature" then order.lookup name else none :=
    (lookup_filter fun key => decide (key ≠ "signature")).trans (by simp)
  have hrest (name : String) : (top.filter fun field => field.1 ≠ "order").lookup name =
      if name ≠ "order" then top.lookup name else none :=
    (lookup_filter fun key => decide (key ≠ "order")).trans (by simp)
  rw [withoutSignature_obj h, Json.sorted_obj_eq_iff]
  constructor
  · intro hsame
    constructor
    · intro name hname
      have horder := hsame "order"
      rw [List.lookup_cons_self, h', Option.map_some, Option.map_some, Option.some.injEq,
        Json.sorted_obj_eq_iff] at horder
      have hlevel := horder name
      rwa [hfilter, if_pos hname] at hlevel
    · intro name hname
      have hlevel := hsame name
      rwa [List.lookup_cons, beq_false_of_ne hname, hrest, if_pos hname] at hlevel
  · intro hsame name
    by_cases hname : name = "order"
    · rw [hname, List.lookup_cons_self, h', Option.map_some, Option.map_some, Option.some.injEq,
        Json.sorted_obj_eq_iff]
      intro key
      by_cases hkey : key = "signature"
      · rw [hkey, hfilter, if_neg (not_not_intro rfl), hunsigned]
      · rw [hfilter, if_pos hkey]
        exact hsame.order key hkey
    · rw [List.lookup_cons, beq_false_of_ne hname, hrest, if_pos hname]
      exact hsame.top name hname

/-! ### What the digest covers -/

theorem sorted_getD {a b : Option Decoded} (h : a.map Json.sorted = b.map Json.sorted) :
    Json.sorted (a.getD .null) = Json.sorted (b.getD .null) := by
  cases a <;> cases b <;> simp_all

theorem map_sorted_of_getD {a b : Option Decoded} (ha : a.isSome = true) (hb : b.isSome = true)
    (h : Json.sorted (a.getD .null) = Json.sorted (b.getD .null)) :
    a.map Json.sorted = b.map Json.sorted := by
  cases a <;> cases b <;> simp_all

theorem map_sorted_of_none {a b : Option Decoded} (ha : ¬ a.isSome = true) (hb : ¬ b.isSome = true) :
    a.map Json.sorted = b.map Json.sorted := by
  rw [Option.not_isSome_iff_eq_none.mp ha, Option.not_isSome_iff_eq_none.mp hb]

theorem mem_orderRequired {name : String} (h : name ∈ coveredInOrder) : name ∈ orderRequired := by
  revert name
  decide

theorem mem_coveredInOrder {name : String} (h : name ∈ orderAllowed) (hname : name ≠ "signature") :
    name ∈ coveredInOrder := by
  revert name
  decide

theorem mem_topLevelRequired {name : String} (h : name ∈ coveredTopLevel) :
    name ∈ topLevelRequired ∧ name ∉ coveredInOrder ∧ name ≠ "order" := by
  revert name
  decide

theorem mem_coveredTopLevel {name : String} (h : name ∈ topLevelRequired) (hname : name ≠ "order") :
    name ∈ coveredTopLevel := by
  revert name
  decide

/-- **The flat dictionary** of two bodies in the exact sets is the same when their levels are. -/
theorem sorted_coveredFields_iff (h : ExactSet body top order) (h' : ExactSet body' top' order') :
    Json.sorted (.obj (coveredFields top order)) = Json.sorted (.obj (coveredFields top' order')) ↔
      SameOrder top order top' order' := by
  rw [Json.sorted_obj_eq_iff]
  constructor
  · intro hsame
    constructor
    · intro name hname
      by_cases hcovered : name ∈ coveredInOrder
      · have hvalue := hsame name
        rw [lookup_coveredFields, lookup_coveredFields, if_pos hcovered, if_pos hcovered,
          Option.map_some, Option.map_some, Option.some.injEq] at hvalue
        have hrequired := mem_orderRequired hcovered
        exact map_sorted_of_getD (h.order_required name hrequired) (h'.order_required name hrequired)
          hvalue
      · exact map_sorted_of_none
          (fun hsome => hcovered (mem_coveredInOrder (h.order_allowed name hsome) hname))
          (fun hsome => hcovered (mem_coveredInOrder (h'.order_allowed name hsome) hname))
    · intro name hname
      by_cases hcovered : name ∈ coveredTopLevel
      · obtain ⟨hrequired, hnot, -⟩ := mem_topLevelRequired hcovered
        have hvalue := hsame name
        rw [lookup_coveredFields, lookup_coveredFields, if_neg hnot, if_neg hnot, if_pos hcovered,
          if_pos hcovered, Option.map_some, Option.map_some, Option.some.injEq] at hvalue
        exact map_sorted_of_getD (h.top_required name hrequired) (h'.top_required name hrequired) hvalue
      · exact map_sorted_of_none
          (fun hsome => hcovered (mem_coveredTopLevel (h.top_allowed name hsome) hname))
          (fun hsome => hcovered (mem_coveredTopLevel (h'.top_allowed name hsome) hname))
  · intro hsame name
    rw [lookup_coveredFields, lookup_coveredFields]
    by_cases horder : name ∈ coveredInOrder
    · rw [if_pos horder, if_pos horder, Option.map_some, Option.map_some]
      have hname : name ≠ "signature" := by
        rintro rfl
        revert horder
        decide
      exact congrArg some (sorted_getD (hsame.order name hname))
    · rw [if_neg horder, if_neg horder]
      by_cases htop : name ∈ coveredTopLevel
      · rw [if_pos htop, if_pos htop, Option.map_some, Option.map_some]
        exact congrArg some (sorted_getD (hsame.top name (mem_topLevelRequired htop).2.2))
      · rw [if_neg htop, if_neg htop]

theorem isSome_of_map_sorted {a b : Option Decoded} (h : a.map Json.sorted = b.map Json.sorted) :
    a.isSome = b.isSome := by
  cases a <;> cases b <;> simp_all

/-- A body of the same levels keeps to the exact sets too. -/
theorem ExactSet.of_same (h' : ExactSet body' top' order')
    (horder : top.lookup "order" = some (.obj order)) (hsame : SameOrder top order top' order') :
    ExactSet (.obj top) top order where
  body_eq := rfl
  order_eq := horder
  top_required name hname := by
    by_cases hkey : name = "order"
    · rw [hkey, horder]
      rfl
    · rw [isSome_of_map_sorted (hsame.top name hkey)]
      exact h'.top_required name hname
  top_allowed name hsome := by
    by_cases hkey : name = "order"
    · rw [hkey]
      decide
    · rw [isSome_of_map_sorted (hsame.top name hkey)] at hsome
      exact h'.top_allowed name hsome
  order_required name hname := by
    have hkey : name ≠ "signature" := by
      rintro rfl
      revert hname
      decide
    rw [isSome_of_map_sorted (hsame.order name hkey)]
    exact h'.order_required name hname
  order_allowed name hsome := by
    by_cases hkey : name = "signature"
    · rw [hkey]
      exact List.mem_cons_self
    · rw [isSome_of_map_sorted (hsame.order name hkey)] at hsome
      exact h'.order_allowed name hsome

theorem obj_of_sorted {v : Decoded} {fields : List (String × Decoded)}
    (h : Json.sorted v = .obj fields) : ∃ fields', v = .obj fields' := by
  cases v with
  | obj fields' => exact ⟨fields', rfl⟩
  | _ => simp [Json.sorted] at h

/-! ### What is accepted -/

section Accepted

variable {format : Json.FloatFormat PyFloat} {sha256 : List Char → String} {textOf : Value → String}
  {intent : AdmittedPostRoundingIntent} {market : OrderMarket} {binding : SignerBinding}
  {payload : CompiledSigningPayload}

/-- A body that is the compiled one apart from a signature, level by level. -/
theorem posts_iff (h : payload.postBody = .obj (postBody intent market binding)) :
    payload.Posts body ↔ ∃ top order, body = .obj top ∧ top.lookup "order" = some (.obj order) ∧
      SameOrder top order (postBody intent market binding) (wireOrder intent market binding) := by
  have hunsigned : (wireOrder intent market binding).lookup "signature" = none := by
    simp [wireOrder, List.lookup]
  unfold CompiledSigningPayload.Posts
  rw [h]
  constructor
  · intro hposts
    obtain ⟨fields, hfields⟩ := obj_of_sorted (v := withoutSignature body) hposts
    have hbody : ∃ top, body = .obj top := by
      cases body with
      | obj top => exact ⟨top, rfl⟩
      | _ => simp [withoutSignature] at hfields
    obtain ⟨top, rfl⟩ := hbody
    have horder : ∃ order, top.lookup "order" = some (.obj order) := by
      by_contra hnot
      have hwhole : withoutSignature (.obj top) = .obj top := by
        rw [withoutSignature]
        split
        · rename_i order hlookup
          exact absurd ⟨order, hlookup⟩ hnot
        · rfl
      rw [hwhole, Json.sorted_obj_eq_iff] at hposts
      obtain ⟨value, hvalue, hsorted⟩ := Option.map_eq_some_iff.mp (hposts "order")
      obtain ⟨order, rfl⟩ := obj_of_sorted hsorted
      exact hnot ⟨order, hvalue⟩
    obtain ⟨order, horder⟩ := horder
    exact ⟨top, order, rfl, horder,
      (sorted_withoutSignature_iff horder exactSet_postBody.order_eq hunsigned).mp hposts⟩
  · rintro ⟨top, order, rfl, horder, hsame⟩
    exact (sorted_withoutSignature_iff horder exactSet_postBody.order_eq hunsigned).mpr hsame

/-- The commitment of a body, where there is one. -/
theorem integrityCommitmentOver_ok {digest : String} :
    integrityCommitmentOver format sha256 body = .ok digest ↔ ∃ top order, ExactSet body top order ∧
      digest = sha256 (serializePayload format (.obj (coveredFields top order))) := by
  unfold integrityCommitmentOver
  rw [bind_eq_ok]
  constructor
  · rintro ⟨covered, hcovered, h⟩
    obtain ⟨top, order, hset, rfl⟩ := extractCoveredFields_ok.mp hcovered
    exact ⟨top, order, hset, (Except.ok.inj h).symm⟩
  · rintro ⟨top, order, hset, rfl⟩
    exact ⟨_, extractCoveredFields_ok.mpr ⟨top, order, hset, rfl⟩, rfl⟩

/-- A body is accepted when it keeps to the exact sets and has the committed digest. -/
theorem verify_ok {commitment : OrderSigningCommitment} :
    verifyPostBodyAgainstCommitment format sha256 body commitment = .ok () ↔
      integrityCommitmentOver format sha256 body = .ok commitment.integrityCommitmentHash := by
  unfold verifyPostBodyAgainstCommitment
  rw [bind_eq_ok]
  constructor
  · rintro ⟨digest, hdigest, h⟩
    rw [failClosedUnless_ok, decide_eq_true_eq] at h
    rwa [← h]
  · intro h
    exact ⟨_, h, by simp⟩

/-- **The byte-verify** accepts the compiled body, apart from a signature, and no other. -/
theorem verify_iff_posts (hsha : Set.InjOn sha256 (Set.range (serializePayload format)))
    (h : compile intent market binding format sha256 textOf = .ok payload) :
    verifyPostBodyAgainstCommitment format sha256 body ⟨payload.integrityCommitmentHash⟩ = .ok () ↔
      payload.Posts body := by
  obtain ⟨-, -, -, hbody, hcommitment⟩ := compile_ok h
  rw [hbody, integrityCommitmentOver_postBody, Except.ok.injEq] at hcommitment
  rw [verify_ok, integrityCommitmentOver_ok, posts_iff hbody]
  constructor
  · rintro ⟨top, order, hset, hdigest⟩
    have htext := hsha ⟨_, rfl⟩ ⟨_, rfl⟩ (hcommitment.trans hdigest)
    have hsame := (sorted_coveredFields_iff exactSet_postBody hset).mp ((Json.dumps_inj format).mp htext)
    exact ⟨top, order, hset.body_eq, hset.order_eq, fun name hname => (hsame.order name hname).symm,
      fun name hname => (hsame.top name hname).symm⟩
  · rintro ⟨top, order, rfl, horder, hsame⟩
    have hset := exactSet_postBody.of_same horder hsame
    have htext := (Json.dumps_inj format).mpr ((sorted_coveredFields_iff hset exactSet_postBody).mpr hsame)
    exact ⟨top, order, hset, hcommitment.symm.trans (congrArg sha256 htext.symm)⟩

end Accepted

/-! ### The order hash of a body -/

/-- A side by its name, as the signed struct has it. -/
def abiOfText : Decoded → Option Value
  | .str side =>
    if side = Side.buy.text then some (.int Side.buy.abi)
    else if side = Side.sell.text then some (.int Side.sell.abi) else none
  | _ => none

/-- A text or a whole number, as a value of a message. -/
def scalarValue : Decoded → Option Value
  | .str s => some (.str s)
  | .int n => some (.int n)
  | _ => none

/-- The names of the signed struct. -/
def signedNames : List String :=
  ["salt", "maker", "signer", "tokenId", "makerAmount", "takerAmount", "side", "signatureType",
    "timestamp", "metadata", "builder"]

/-- A field of the message, from the order of a body. -/
def signedField (order : List (String × Decoded)) (name : String) : Option (String × Value) := do
  let value ← order.lookup name
  let value ← if name = "side" then abiOfText value else scalarValue value
  return (name, value)

/-- The message that the order of a body stands for. -/
def messageOfOrder (order : List (String × Decoded)) : Option (List (String × Value)) :=
  signedNames.mapM (signedField order)

/-- The order hash of a body, under the domain of a market. -/
def recomputeOrderHash (textOf : Value → String) (negRisk : Bool) (body : Decoded) :
    Except PyExc String := do
  let (_, order) ← enforceExactSet body
  match messageOfOrder order with
  | some message => orderHashFromTypedData textOf (typedDataOf negRisk message)
  | none => .error ⟨.valueError, "not an order message"⟩

section OrderHash

variable {format : Json.FloatFormat PyFloat} {sha256 : List Char → String} {textOf : Value → String}
  {intent : AdmittedPostRoundingIntent} {market : OrderMarket} {binding : SignerBinding}
  {payload : CompiledSigningPayload}

/-- The wire order of a compiled body stands for the message that was hashed. -/
theorem messageOfOrder_wireOrder : messageOfOrder (wireOrder intent market binding) =
    some (signedMessage intent market binding) := by
  cases hside : intent.side <;>
    simp [messageOfOrder, signedNames, signedField, wireOrder, signedMessage, List.lookup, scalarValue,
      abiOfText, hside, Side.text, Side.abi]

theorem mapM_congr {α β : Type} {f g : α → Option β} : ∀ {xs : List α}, (∀ x ∈ xs, f x = g x) →
    xs.mapM f = xs.mapM g
  | [], _ => rfl
  | x :: xs, h => by
    rw [List.mapM_cons, List.mapM_cons, h x List.mem_cons_self,
      mapM_congr fun y hy => h y (List.mem_cons_of_mem x hy)]

theorem eq_of_sorted_scalar {v w : Decoded} (hscalar : (scalarValue w).isSome = true)
    (h : Json.sorted v = Json.sorted w) : v = w := by
  cases w with
  | str s => cases v <;> simp_all [Json.sorted]
  | int n => cases v <;> simp_all [Json.sorted]
  | _ => simp [scalarValue] at hscalar

theorem scalar_wireOrder {name : String} {value : Decoded}
    (h : (wireOrder intent market binding).lookup name = some value) :
    (scalarValue value).isSome = true := by
  have hmem := mem_of_lookup h
  simp only [wireOrder, List.mem_cons, Prod.mk.injEq, List.not_mem_nil, or_false] at hmem
  rcases hmem with ⟨-, rfl⟩ | ⟨-, rfl⟩ | ⟨-, rfl⟩ | ⟨-, rfl⟩ | ⟨-, rfl⟩ | ⟨-, rfl⟩ | ⟨-, rfl⟩ |
    ⟨-, rfl⟩ | ⟨-, rfl⟩ | ⟨-, rfl⟩ | ⟨-, rfl⟩ | ⟨-, rfl⟩ <;> rfl

/-- Texts and whole numbers are the same when their canonical forms are. -/
theorem lookup_wireOrder {order : List (String × Decoded)} {name : String}
    (h : (order.lookup name).map Json.sorted =
      ((wireOrder intent market binding).lookup name).map Json.sorted) :
    order.lookup name = (wireOrder intent market binding).lookup name := by
  cases hwire : (wireOrder intent market binding).lookup name with
  | none =>
    rw [hwire, Option.map_none] at h
    exact Option.map_eq_none_iff.mp h
  | some value =>
    rw [hwire, Option.map_some] at h
    obtain ⟨found, hfound, hsorted⟩ := Option.map_eq_some_iff.mp h
    rw [hfound, eq_of_sorted_scalar (scalar_wireOrder hwire) hsorted]

/-- **The order hash** of a body that is the compiled one apart from a signature is the join key. -/
theorem recompute_of_posts (h : compile intent market binding format sha256 textOf = .ok payload)
    (hposts : payload.Posts body) :
    recomputeOrderHash textOf market.negRisk body = .ok payload.venueOrderKey := by
  obtain ⟨-, htyped, hhash, hbody, -⟩ := compile_ok h
  obtain ⟨top, order, rfl, horder, hsame⟩ := (posts_iff hbody).mp hposts
  have hset := exactSet_postBody.of_same horder hsame
  have hmessage : messageOfOrder order = some (signedMessage intent market binding) := by
    rw [← messageOfOrder_wireOrder]
    refine mapM_congr fun name hname => ?_
    have hkey : name ≠ "signature" := by
      rintro rfl
      revert hname
      decide
    rw [signedField, signedField, lookup_wireOrder (hsame.order name hkey)]
  rw [htyped] at hhash
  refine bind_eq_ok.mpr ⟨(top, order), enforceExactSet_ok.mpr hset, ?_⟩
  dsimp only
  rw [hmessage]
  exact hhash

/-- **The commitment of a compiled order.** It accepts the compiled body, with or without a signature,
and no other, and what it accepts has the order hash that the order is joined by. -/
theorem verifyPostBody_iff (hsha : Set.InjOn sha256 (Set.range (serializePayload format)))
    (h : compile intent market binding format sha256 textOf = .ok payload) :
    ∃ commitment, OrderSigningCommitment.fromPayload format sha256 payload = .ok commitment ∧
      ∀ body, (verifyPostBodyAgainstCommitment format sha256 body commitment = .ok () ↔
          payload.Posts body) ∧
        (verifyPostBodyAgainstCommitment format sha256 body commitment = .ok () →
          recomputeOrderHash textOf market.negRisk body = .ok payload.venueOrderKey) := by
  refine ⟨_, fromPayload_compiled h, fun body => ⟨verify_iff_posts hsha h, fun hverify => ?_⟩⟩
  exact recompute_of_posts h ((verify_iff_posts hsha h).mp hverify)

end OrderHash

theorem half_mem : 0 ≤ (1 / 2 : ℚ) ∧ (1 / 2 : ℚ) ≤ 1 := by norm_num

/-- A buy of two shares at a half. -/
def halfOrder : AdmittedPostRoundingIntent where
  side := .buy
  makerAmount := "1000000"
  takerAmount := "2000000"
  nativePrice := ⟨1 / 2, half_mem⟩
  size := .fin 2
  tif := .fak

/-- Who signs it. -/
def halfBinding : SignerBinding where
  salt := "1"
  maker := "0x1"
  owner := "owner"
  timestamp := "0"

/-- The market of the half order. -/
def halfMarket : OrderMarket := { tokenId := "7" }

/-- The half order commits, under a digest that is the text itself. -/
theorem verifyPostBody_iff_halfOrder : ∃ payload, compile halfOrder halfMarket halfBinding
      ratioFormat String.ofList (fun _ => "") = .ok payload ∧
    ∃ commitment, OrderSigningCommitment.fromPayload ratioFormat String.ofList payload =
        .ok commitment ∧
      ∀ body, (verifyPostBodyAgainstCommitment ratioFormat String.ofList body commitment = .ok () ↔
          payload.Posts body) ∧
        (verifyPostBodyAgainstCommitment ratioFormat String.ofList body commitment = .ok () →
          recomputeOrderHash (fun _ => "") halfMarket.negRisk body = .ok payload.venueOrderKey) := by
  have hencodes : encodes halfOrder halfMarket halfBinding = true := by decide +kernel
  obtain ⟨payload, hpayload⟩ := exists_compiled hencodes rfl (by decide)
  exact ⟨payload, hpayload, verifyPostBody_iff (fun _ _ _ _ h => String.ofList_injective h) hpayload⟩

end Veridex.DustExecution
