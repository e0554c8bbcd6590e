import JsonPath.Assertion
import JsonPath.Proofs.Function.Catalogues
import JsonPath.Proofs.Value.Equivalence
import JsonPath.Proofs.Value.Writability

/-! Assertions on one request agree with each other. They are decided by the nodes that the
request finds, so that what has to be shown is how identity, equality and number of values
depend on each other, for nodes that are found at their places in the document. What is wrong
with an assertion that does not hold can be told unless an integer is too long to be written.
-/

namespace JsonPath

-----------------------------------------------------------------------------------------
-- Documents
-----------------------------------------------------------------------------------------

namespace Source

variable {source : Source} {document : Value}

/-- Only a document that is given by its value has to be known to have distinct names. -/
theorem isKeyed_document (keyed : ∀ value, source = .value value → value.IsKeyed)
    (given : source.document = .ok document)
    : document.IsKeyed := by
  cases source with
  | text t => exact Document.isKeyed_of_decode given
  | bytes encoded => exact Document.isKeyed_of_decodeBytes given
  | value value =>
      obtain rfl := Except.ok.inj given
      exact keyed value rfl

/-- Only a document that is given by its value can have integers that cannot be written. -/
theorem isWritable_document (writable : ∀ value, source = .value value → value.isWritable)
    (given : source.document = .ok document)
    : document.isWritable := by
  cases source with
  | text t => exact Document.isWritable_of_decode given
  | bytes encoded => exact Document.isWritable_of_decodeBytes given
  | value value =>
      obtain rfl := Except.ok.inj given
      exact writable value rfl

/-- The nodes that a request finds are placed in the document. -/
theorem isPlaced_of_findNodes {request : Request} {nodes : List Node}
    (given : source.document = .ok document) (keyed : document.IsKeyed)
    (found : source.findNodes request = .ok nodes)
    : ∀ node ∈ nodes, node.IsPlaced document := by
  obtain ⟨given', given'_eq, found⟩ := Outcome.bind_eq_ok.mp found
  rw [Outcome.mapError_eq_ok, given] at given'_eq
  obtain rfl := Except.ok.inj given'_eq
  obtain ⟨context, loaded, found⟩ := Outcome.bind_eq_ok.mp found
  obtain ⟨query, _, found⟩ := Outcome.bind_eq_ok.mp found
  have loaded : Context.load document [] = .ok context := Outcome.mapError_eq_ok.mp loaded
  rw [Context.load_of_isValid .nil] at loaded
  obtain rfl := Except.ok.inj loaded
  have found := Outcome.mapError_eq_ok.mp found
  refine Node.isPlaced_of_apply keyed (fun node member => ?_) found
  obtain rfl := List.mem_singleton.mp member
  rfl

end Source

-----------------------------------------------------------------------------------------
-- What nodes satisfy
-----------------------------------------------------------------------------------------

/-- What an expected object holds: the part of the document at its location, or any value
when it is no part of the document.
-/
def Expected.Holds (document : Value) (expected : Expected) (value : Value) : Prop :=
  expected.isCopy = false → document.follow? expected.location = some value

namespace Assertion

variable {shares : Location → Location → Bool} {nodes : List Node}

/-- Results are the same when they are the expected parts of the document, node by node. -/
theorem holds_same_iff {expected : List Expected}
    : (same expected).holds shares nodes
      ↔ List.Forall₂
          (fun node item => shares node.location item.location ∧ item.isCopy = false)
          nodes expected := by
  simp only [holds]
  induction nodes generalizing expected with
  | nil => cases expected <;> simp [areSame]
  | cons node nodes ih => cases expected <;> simp [areSame, ih, and_assoc]

/-- Results equal an array when their values equal its elements, one by one. -/
theorem holds_equals_iff {values : List Value}
    : (equals (.array values)).holds shares nodes
      ↔ List.Forall₂ (fun node value => node.value.isEqual value) nodes values := by
  rw [holds, Value.isEqual, Value.elementsEqual_iff, List.forall₂_map_left_iff]

/-- Results contain a value when it equals the value of one of them. -/
theorem holds_contains_iff {value : Value}
    : (contains value).holds shares nodes ↔ ∃ node ∈ nodes, node.value.isEqual value := by
  simp [holds]

theorem holds_count (nodes : List Node)
    : (count (.number (.int nodes.length))).holds shares nodes := by
  simp [holds, Value.isAlike, Value.asNumber?, Number.isEqual]

/-- Either the results equal a value or they do not. -/
theorem holds_notEquals (value : Value)
    : (notEquals value).holds shares nodes = !(equals value).holds shares nodes := rfl

theorem holds_notContains (value : Value)
    : (notContains value).holds shares nodes = !(contains value).holds shares nodes := rfl

variable {document : Value}

/-- Placed nodes that are the expected objects have values that are equal to what these hold.
-/
theorem equals_of_same {expected : List Expected} {values : List Value}
    (keyed : document.IsKeyed)
    (alike : ∀ location other, shares location other
      → document.follow? location = document.follow? other)
    (placed : ∀ node ∈ nodes, node.IsPlaced document)
    (held : List.Forall₂ (Expected.Holds document) expected values)
    (h : (same expected).holds shares nodes)
    : (equals (.array values)).holds shares nodes := by
  rw [holds_same_iff] at h
  rw [holds_equals_iff]
  induction h generalizing values with
  | nil =>
      cases held
      exact .nil
  | @cons node item _ _ isItem _ ih =>
      obtain ⟨isShared, isPart⟩ := isItem
      obtain ⟨placedNode, placed⟩ := List.forall_mem_cons.mp placed
      cases held with
      | @cons _ value _ _ holdsValue held =>
          -- The node need not be where the object is expected, but the object is the same.
          have leads : document.follow? node.location = some value :=
            (alike _ _ isShared).trans (holdsValue isPart)
          obtain rfl : node.value = value := Option.some.inj (placedNode.symm.trans leads)
          exact .cons (Value.isEqual_refl (keyed.follow leads)) (ih placed held)

/-- Results that equal an array are as many as its elements. -/
theorem count_of_equals {values : List Value}
    (h : (equals (.array values)).holds shares nodes)
    : (count (.number (.int values.length))).holds shares nodes := by
  rw [← (holds_equals_iff.mp h).length_eq]
  exact holds_count nodes

/-- A value that is equal to one of the values that the nodes are equal to is equal to the
value of a node.
-/
theorem contains_of_equals {values : List Value} {value other : Value}
    (keyedNodes : ∀ node ∈ nodes, node.value.IsKeyed)
    (keyedValues : ∀ value ∈ values, value.IsKeyed) (keyed : value.IsKeyed)
    (h : (equals (.array values)).holds shares nodes) (member : other ∈ values)
    (equal : value.isEqual other)
    : (contains value).holds shares nodes := by
  obtain ⟨position, found⟩ := List.mem_iff_getElem?.mp member
  have pair := Value.getElem?_of_forall₂ (holds_equals_iff.mp h) position
  rw [found] at pair
  generalize found' : nodes[position]? = item at pair
  cases pair with
  | @some node _ same =>
      have inNodes := List.mem_of_getElem? found'
      have toOther : Value.EqualKeyed node.value other :=
        ⟨keyedNodes node inNodes, keyedValues other member, same⟩
      have fromValue : Value.EqualKeyed value other :=
        ⟨keyed, keyedValues other member, equal⟩
      exact holds_contains_iff.mpr ⟨node, inNodes, (toOther.trans fromValue.symm).equal⟩

/-- Equal values are contained in the same nodes. -/
theorem contains_congr {value other : Value} (equal : Value.EqualKeyed value other)
    : (contains value).holds shares nodes ↔ (contains other).holds shares nodes := by
  simp only [holds_contains_iff, fun node : Node => (equal.indistinct node.value).2]

end Assertion

-----------------------------------------------------------------------------------------
-- Messages
-----------------------------------------------------------------------------------------

/-- Whether a request can be written. A text is shown as it is. -/
def Request.isWritable : Request → Bool
  | .text _ => true
  | .built query => segmentsWritable query

/-- Whether what is expected can be written. -/
def Assertion.isWritable : Assertion → Bool
  | count expected | equals expected | notEquals expected | contains expected
  | notContains expected => expected.isWritable
  | same _ => true

namespace Assertion

/-- A request that can be written is shown in the message. -/
theorem exists_request {request : Request} (writable : request.isWritable)
    : ∃ t, request? request = some t := by
  cases request with
  | text t => exact ⟨t, rfl⟩
  | built query => exact ⟨query.text, if_pos writable⟩

/-- What is wrong can be told when all that is shown can be written. -/
theorem exists_failure {request : Request} {nodes : List Node} (assertion : Assertion)
    (requestWritable : request.isWritable) (writable : assertion.isWritable)
    (nodesWritable : ∀ node ∈ nodes, node.value.isWritable)
    : ∃ message, assertion.failure request nodes = some message := by
  obtain ⟨shownRequest, request_eq⟩ := exists_request requestWritable
  have matched_eq : (Value.array (nodes.map (·.value))).text? = some _ :=
    if_pos (Value.isWritable_array.mpr (by simpa using nodesWritable))
  rw [failure, request_eq, matched_eq]
  cases assertion with
  | same _ => exact ⟨_, rfl⟩
  | count expected =>
      have expected_eq : expected.isWritable = true := writable
      simp [expected_eq]
  | equals expected | notEquals expected | contains expected | notContains expected =>
      have expected_eq : expected.text? = some expected.text := if_pos writable
      simp [expected_eq]

/-- It cannot be told that matches are not equal to what cannot be written. -/
theorem failure_equals_of_not_isWritable {expected : Value}
    (unwritable : expected.isWritable = false) (request : Request) (nodes : List Node)
    : (equals expected).failure request nodes = none := by
  have expected_eq : expected.text? = none := by
    rw [Value.text?, unwritable]
    rfl
  rw [failure]
  cases request? request <;> simp [expected_eq]

end Assertion

-----------------------------------------------------------------------------------------
-- Trials
-----------------------------------------------------------------------------------------

/-- A request on a document, and which locations of the document have one and the same
object.
-/
structure Trial where
  source : Source
  request : Request
  shares : Location → Location → Bool

namespace Trial

/-- The nodes that are found. -/
def found (trial : Trial) : Except RequestError (List Node) :=
  trial.source.findNodes trial.request

/-- Checks an assertion on what is found. -/
def check (trial : Trial) (assertion : Assertion) : Except RequestError Assertion.Verdict :=
  assertion.checkIn trial.shares trial.request trial.source

def Passes (trial : Trial) (assertion : Assertion) : Prop :=
  trial.check assertion = .ok .passed

/-- The check fails with a message about what is wrong. -/
def Fails (trial : Trial) (assertion : Assertion) : Prop :=
  ∃ message, trial.check assertion = .ok (.failed message)

/-- One of two assertions passes and the other one fails. -/
def Opposes (trial : Trial) (assertion other : Assertion) : Prop :=
  trial.Passes assertion ∧ trial.Fails other ∨ trial.Fails assertion ∧ trial.Passes other

/-- The names in each object of the document are distinct, and locations with one and the
same object lead to one and the same value.
-/
structure IsSound (trial : Trial) : Prop where
  keyed : ∀ document, trial.source = .value document → document.IsKeyed
  shares_self : ∀ location, trial.shares location location
  alike
    : ∀ document,
        trial.source.document = .ok document
        → ∀ location other,
            trial.shares location other → document.follow? location = document.follow? other

variable {trial : Trial} {nodes : List Node} {assertion other : Assertion}

/-- An assertion about results passes, or fails with its message if this can be written. -/
theorem check_of_ok (h : trial.found = .ok nodes) (assertion : Assertion)
    : trial.check assertion
        = .ok (if assertion.holds trial.shares nodes then .passed
            else ((assertion.failure trial.request nodes).map .failed).getD .unwritable) := by
  rw [check, Assertion.checkIn, ← found, h, Outcome.ok_bind]
  split <;> rfl

/-- An assertion whose query fails reports the error of the query. -/
theorem check_of_error {error : RequestError} (h : trial.found = .error error)
    (assertion : Assertion)
    : trial.check assertion = .error error :=
  Outcome.bind_of_error h

/-- With results, passing is holding. -/
theorem passes_iff (h : trial.found = .ok nodes)
    : trial.Passes assertion ↔ assertion.holds trial.shares nodes := by
  rw [Passes, check_of_ok h]
  cases assertion.holds trial.shares nodes with
  | true => simp
  | false => cases assertion.failure trial.request nodes <;> simp

/-- With results, failing is not holding while there is a message to tell so. -/
theorem fails_iff (h : trial.found = .ok nodes)
    : trial.Fails assertion
      ↔ assertion.holds trial.shares nodes = false
        ∧ ∃ message, assertion.failure trial.request nodes = some message := by
  simp only [Fails, check_of_ok h]
  cases assertion.holds trial.shares nodes with
  | true => simp
  | false => cases assertion.failure trial.request nodes <;> simp

/-- Of an assertion and its negation one passes. -/
theorem passes_iff_of_not (h : trial.found = .ok nodes)
    (negates : other.holds trial.shares nodes = !assertion.holds trial.shares nodes)
    : trial.Passes other ↔ ¬trial.Passes assertion := by
  rw [passes_iff h, passes_iff h, negates]
  cases assertion.holds trial.shares nodes <;> simp

/-- An assertion and its negation are opposite when it can be told what is wrong with them. -/
theorem opposes_of_not (h : trial.found = .ok nodes)
    (negates : other.holds trial.shares nodes = !assertion.holds trial.shares nodes)
    (told : ∃ message, assertion.failure trial.request nodes = some message)
    (told' : ∃ message, other.failure trial.request nodes = some message)
    : trial.Opposes assertion other := by
  rw [Opposes, passes_iff h, passes_iff h, fails_iff h, fails_iff h, negates]
  cases assertion.holds trial.shares nodes with
  | true => exact .inl ⟨rfl, rfl, told'⟩
  | false => exact .inr ⟨⟨rfl, told⟩, rfl⟩

-----------------------------------------------------------------------------------------
-- Main statement
-----------------------------------------------------------------------------------------

/-- When the request finds nodes, the very objects at their locations pass as the same; what
is the same is equal; what is equal has the same number of values and contains each of them,
up to equality; equal values are contained alike; and of two opposite assertions one passes.
The other one fails when the request, the values that are found and the one that is expected
can be written, as can be all values of a document that is read. When the request fails, every
assertion fails with the same error.
-/
theorem assertions_agree (sound : trial.IsSound)
    : (∀ error,
        trial.found = .error error → ∀ assertion, trial.check assertion = .error error)
      ∧ ∀ document nodes,
          trial.source.document = .ok document
          → trial.found = .ok nodes
          → trial.Passes (.same (nodes.map fun node => ⟨node.location, false⟩))
            ∧ (∀ expected values,
                List.Forall₂ (Expected.Holds document) expected values
                → trial.Passes (.same expected)
                → trial.Passes (.equals (.array values)))
            ∧ (∀ values,
                (Value.array values).IsKeyed
                → trial.Passes (.equals (.array values))
                → trial.Passes (.count (.number (.int values.length)))
                  ∧ ∀ value other,
                      value.IsKeyed
                      → other ∈ values
                      → value.isEqual other
                      → trial.Passes (.contains value))
            ∧ (∀ value other,
                value.IsKeyed
                → other.IsKeyed
                → value.isEqual other
                → (trial.Passes (.contains value) ↔ trial.Passes (.contains other)))
            ∧ (∀ value,
                (trial.Passes (.notEquals value) ↔ ¬trial.Passes (.equals value))
                ∧ (trial.Passes (.notContains value) ↔ ¬trial.Passes (.contains value)))
            ∧ (trial.request.isWritable
                → (∀ node ∈ nodes, node.value.isWritable)
                → ∀ value,
                    value.isWritable
                    → trial.Opposes (.equals value) (.notEquals value)
                      ∧ trial.Opposes (.contains value) (.notContains value))
            ∧ ((∀ value, trial.source = .value value → value.isWritable)
                → ∀ node ∈ nodes, node.value.isWritable) := by
  refine ⟨fun error => check_of_error, fun document nodes given found => ?_⟩
  have keyed := Source.isKeyed_document sound.keyed given
  have placed := Source.isPlaced_of_findNodes given keyed found
  have keyedNodes (node : Node) (member : node ∈ nodes) : node.value.IsKeyed :=
    keyed.follow (placed node member)
  have notEquals (value : Value) : (Assertion.notEquals value).holds trial.shares nodes = _ :=
    Assertion.holds_notEquals value
  have notContains (value : Value)
      : (Assertion.notContains value).holds trial.shares nodes = _ :=
    Assertion.holds_notContains value
  refine ⟨?_, fun expected values held => ?_, fun values keyedValues equals => ?_,
    fun value other keyedValue keyedOther equal => ?_,
    fun value => ⟨passes_iff_of_not found (notEquals value),
      passes_iff_of_not found (notContains value)⟩,
    fun requestWritable nodesWritable value writable => ?_,
    fun writable node member => ?_⟩
  · rw [passes_iff found, Assertion.holds_same_iff, List.forall₂_map_right_iff,
      List.forall₂_same]
    exact fun node _ => ⟨sound.shares_self node.location, rfl⟩
  · rw [passes_iff found, passes_iff found]
    exact Assertion.equals_of_same keyed (sound.alike document given) placed held
  · rw [passes_iff found] at equals
    rw [passes_iff found]
    refine ⟨Assertion.count_of_equals equals, fun value other keyedValue member equal => ?_⟩
    rw [passes_iff found]
    cases keyedValues with
    | array parts =>
        exact Assertion.contains_of_equals keyedNodes parts keyedValue equals member equal
  · rw [passes_iff found, passes_iff found]
    exact Assertion.contains_congr ⟨keyedValue, keyedOther, equal⟩
  · have told (assertion : Assertion) (writable : assertion.isWritable) :=
      assertion.exists_failure requestWritable writable nodesWritable
    exact ⟨opposes_of_not found (notEquals value) (told _ writable) (told _ writable),
      opposes_of_not found (notContains value) (told _ writable) (told _ writable)⟩
  · have document := Source.isWritable_document writable given
    exact Value.isWritable_follow document (placed node member)

/-- An array of one as an integer or as a floating point number, and two. -/
def oneAndTwo (one : Number) : Value :=
  .array [.number one, .number (.int 2)]

/-- An object whose two members have one and the same array. -/
def twice : Value :=
  .object [([.char 'a'], oneAndTwo (.int 1)), ([.char 'b'], oneAndTwo (.int 1))]

/-- The location of an object that stands at a location, where the second member has the
object of the first one.
-/
def ofFirst : Location → Location
  | .name name :: location =>
    .name (if name = [.char 'b'] then [.char 'a'] else name) :: location
  | location => location

def secondMember : Expected :=
  ⟨[.name [.char 'b']], false⟩

/-- The members of the object. -/
def membersTwice : Trial where
  source := .value twice
  request := .built [.wildcard]
  shares location other := ofFirst location = ofFirst other

theorem isKeyed_oneAndTwo (one : Number) : (oneAndTwo one).IsKeyed := by
  refine .array fun element member => ?_
  rcases List.mem_cons.mp member with rfl | member
  · exact .number
  · obtain rfl := List.mem_singleton.mp member
    exact .number

theorem follow?_ofFirst (location : Location)
    : twice.follow? (ofFirst location) = twice.follow? location := by
  match location with
  | [] => rfl
  | .position _ :: _ => rfl
  | .name name :: location =>
      rw [ofFirst, Value.follow?, Value.follow?]
      split
      next second =>
        subst second
        rfl
      next => rfl

/-- What the first example calls the same are parts of one document. -/
theorem isSound_membersTwice : membersTwice.IsSound where
  keyed := by
    rintro document ⟨⟩
    refine .object (by simp) fun member inside => ?_
    rcases List.mem_cons.mp inside with rfl | inside
    · exact isKeyed_oneAndTwo (.int 1)
    · obtain rfl := List.mem_singleton.mp inside
      exact isKeyed_oneAndTwo (.int 1)
  shares_self location := decide_eq_true rfl
  alike := by
    rintro document ⟨⟩ location other shared
    rw [← follow?_ofFirst location, of_decide_eq_true shared, follow?_ofFirst]

/-- The object of the second member is found twice, so that the matches are equal to its
value twice and contain it, with one as an integer or as a floating point number.
-/
theorem assertions_agree_membersTwice
    : ∃ one : Number,
        one = .float (.ofDecimal false 1 0)
        ∧ membersTwice.IsSound
        ∧ membersTwice.Passes (.same [secondMember, secondMember])
        ∧ membersTwice.Passes (.equals (.array [oneAndTwo (.int 1), oneAndTwo (.int 1)]))
        ∧ membersTwice.Passes (.count (.number (.int 2)))
        ∧ (oneAndTwo one).isEqual (oneAndTwo (.int 1))
        ∧ membersTwice.Passes (.contains (oneAndTwo one))
        ∧ membersTwice.Fails (.notContains (oneAndTwo one)) := by
  obtain ⟨-, agree⟩ := assertions_agree isSound_membersTwice
  obtain ⟨-, equals_of_same, of_equals, -, -, opposes, writable⟩ := agree twice _ rfl rfl
  have same : membersTwice.Passes (.same [secondMember, secondMember]) := rfl
  have equals := equals_of_same _ [oneAndTwo (.int 1), oneAndTwo (.int 1)]
    (.cons (fun _ => rfl) (.cons (fun _ => rfl) .nil)) same
  have keyed : (Value.array [oneAndTwo (.int 1), oneAndTwo (.int 1)]).IsKeyed := by
    refine .array fun element member => ?_
    obtain rfl : element = oneAndTwo (.int 1) := by simpa using member
    exact isKeyed_oneAndTwo (.int 1)
  obtain ⟨count, contains⟩ := of_equals _ keyed equals
  have equal : (oneAndTwo (.float (.ofDecimal false 1 0))).isEqual (oneAndTwo (.int 1)) := by
    decide +kernel
  have contained := contains _ _ (isKeyed_oneAndTwo _) List.mem_cons_self equal
  refine ⟨_, rfl, isSound_membersTwice, same, equals, count, equal, contained, ?_⟩
  have twiceWritable : twice.isWritable := by decide +kernel
  have nodesWritable := writable fun value isTwice => by
    obtain rfl := Source.value.inj isTwice
    exact twiceWritable
  have writable : (oneAndTwo (.float (.ofDecimal false 1 0))).isWritable := by decide +kernel
  obtain ⟨-, opposes⟩ := opposes rfl nodesWritable _ writable
  rcases opposes with ⟨_, fails⟩ | ⟨fails, _⟩
  · exact fails
  · obtain ⟨message, failed⟩ := fails
    rw [contained] at failed
    cases failed

/-- The document is an array of one element. -/
def onlyOne : Trial where
  source := .value (.array [.number (.int 1)])
  request := .text "$"
  shares location other := location = other

/-- An array with an integer of five thousand digits and one. -/
def tooLong : Value :=
  .array [.number (.int (Int.ofNat (Nat.pow 10 5000)))]

/-- The matches are not equal to an array with an integer that is too long, but the assertion
that they are does not fail: what is wrong cannot be told.
-/
theorem not_opposes_tooLong
    : onlyOne.Passes (.notEquals tooLong)
      ∧ onlyOne.check (.equals tooLong) = .ok .unwritable
      ∧ ¬onlyOne.Opposes (.equals tooLong) (.notEquals tooLong) := by
  have found : onlyOne.found = .ok [⟨.array [.number (.int 1)], []⟩] := rfl
  have passes : onlyOne.Passes (.notEquals tooLong) := (passes_iff found).mpr rfl
  have fails : onlyOne.check (.equals tooLong) = .ok .unwritable := by
    have long : tooLong.isWritable = false := by decide +kernel
    rw [check_of_ok found, Assertion.failure_equals_of_not_isWritable long]
    rfl
  refine ⟨passes, fails, ?_⟩
  rintro (⟨passed, -⟩ | ⟨⟨message, failed⟩, -⟩)
  · rw [Passes, fails] at passed
    cases passed
  · rw [fails] at failed
    cases failed

end Trial

end JsonPath
