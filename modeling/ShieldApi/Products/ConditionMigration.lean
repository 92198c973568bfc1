import ShieldApi.Auth.AccessGrants
import ShieldApi.Lib.GetOrCreate
import ShieldApi.Products.QuestionSelection

/-!
# From deprecated fields to conditions

`migrateQuestionsToConditions` of `products/asset-questions/asset-questions.service.ts`: a question
used to name the category or the product it is about; now it has conditions. Each question with one of
the two fields gets a condition that contains it, unless it has one, and then **every question
with a condition of the type loses the field**, in one bulk update that does not look at what the condition
contains.

The two guards fit together because the loop has gone over all of the questions the update can meet: at
the end of it, a field is contained in a condition (`has_migrateField`). After the update no field is left
(`get_clearField`), and a second run finds nothing to do.
-/

set_option autoImplicit false

namespace ShieldApi

/-! ## 1. Tables -/

/-- An `AssetQuestion`, as far as the migration reads and writes it. -/
structure MigratedQuestion where
  id : String
  modifiedOn : Nat := 0
  productCategoryId : Option String := none
  productId : Option String := none
  deriving DecidableEq, Repr

/-- A product or a category. Its id comes from `@default(cuid(2))`, and no request can give one. -/
structure ConditionSubject where
  id : String
  clientId : Option String := none
  drawn : id ≠ ""
  deriving DecidableEq, Repr

/-- An `AssetQuestionCondition` with all of its columns. -/
structure ConditionRow where
  id : String
  createdOn : Nat
  modifiedOn : Nat
  assetQuestionId : String
  conditionType : AssetQuestionConditionType
  value : JsonValue
  description : Option String := none
  clientId : Option String := none

/-- The tables, with the two foreign keys the migration follows. -/
@[ext] structure MigrationTables where
  questions : Table MigratedQuestion String MigratedQuestion.id
  conditions : Table ConditionRow String ConditionRow.id
  categories : Table ConditionSubject String ConditionSubject.id
  products : Table ConditionSubject String ConditionSubject.id
  category_exists : ∀ q ∈ questions, ∀ c, q.productCategoryId = some c → (categories.find? c).isSome
  product_exists : ∀ q ∈ questions, ∀ p, q.productId = some p → (products.find? p).isSome

/-- `array_contains: [s]`. -/
def JsonValue.arrayContains (s : String) : JsonValue → Bool
  | .array items => items.any (·.isText s)
  | _ => false

/-- A field that is migrated. -/
structure DeprecatedField where
  conditionType : AssetQuestionConditionType
  description : String
  get : MigratedQuestion → Option String
  clear : MigratedQuestion → MigratedQuestion
  subjects : MigrationTables → Table ConditionSubject String ConditionSubject.id
  clear_id : ∀ q, (clear q).id = q.id
  get_clear : ∀ q, get (clear q) = none
  /-- To clear a field is not to set the other one. -/
  clear_le : ∀ q c, ((clear q).productCategoryId = some c → q.productCategoryId = some c) ∧
    ((clear q).productId = some c → q.productId = some c)
  subject_exists : ∀ s : MigrationTables, ∀ q ∈ s.questions, ∀ c, get q = some c →
    ((subjects s).find? c).isSome

def productCategoryField : DeprecatedField where
  conditionType := .productCategory
  description := "Migrated from productCategoryId field"
  get q := q.productCategoryId
  clear q := { q with productCategoryId := none }
  subjects s := s.categories
  clear_id _ := rfl
  get_clear _ := rfl
  clear_le _ _ := ⟨(fun h => by cases h), id⟩
  subject_exists s := s.category_exists

def productField : DeprecatedField where
  conditionType := .product
  description := "Migrated from productId field"
  get q := q.productId
  clear q := { q with productId := none }
  subjects s := s.products
  clear_id _ := rfl
  get_clear _ := rfl
  clear_le _ _ := ⟨id, (fun h => by cases h)⟩
  subject_exists s := s.product_exists

/-! ## 2. The migration -/

/-- What the migration counts. -/
structure MigrationCounts where
  categoryConditionsCreated : Nat
  productConditionsCreated : Nat
  categoryFieldsCleared : Nat
  productFieldsCleared : Nat
  deriving DecidableEq, Repr

/-- The clock, the ids of new conditions, and the order in which questions are found. -/
structure MigrationEnv where
  now : Nat := 0
  ids : FreshIds := .longer
  questionOrder : RowOrder MigratedQuestion := .insertion _

namespace AssetQuestionsService

variable (env : MigrationEnv) (f : DeprecatedField)

/-- `findFirst` of a condition of the question that contains the id. -/
def conditionExists (f : DeprecatedField) (s : MigrationTables) (q : MigratedQuestion)
    (id : String) : Bool :=
  s.conditions.rows.any fun c =>
    c.assetQuestionId = q.id && c.conditionType = f.conditionType && c.value.arrayContains id

/-- `assetQuestionCondition.create`. -/
def createCondition (s : MigrationTables) (q : MigratedQuestion) (value : String)
    (clientId : Option String) : MigrationTables :=
  { s with
    conditions := (s.conditions.create env.ids (fun id =>
      { id := id
        createdOn := env.now
        modifiedOn := env.now
        assetQuestionId := q.id
        conditionType := f.conditionType
        value := .array [.text value]
        description := some f.description
        clientId := clientId }) fun _ => rfl).1 }

/-- What the loop does with a question. -/
def migrateQuestion (s : MigrationTables × Nat) (q : MigratedQuestion) : MigrationTables × Nat :=
  match truthy (f.get q), (f.get q).bind (f.subjects s.1).find? with
  | some id, some subject =>
    if conditionExists f s.1 q id then s
    else (createCondition env f s.1 q id subject.clientId, s.2 + 1)
  | _, _ => s

def migrateField (s : MigrationTables) : MigrationTables × Nat :=
  (env.questionOrder.findMany (fun q => (f.get q).isSome) s.questions.rows).foldl
    (migrateQuestion env f) (s, 0)

/-- The field is set, and there is some condition of the type. -/
def isCleared (s : MigrationTables) (q : MigratedQuestion) : Bool :=
  (f.get q).isSome &&
    s.conditions.rows.any fun c => c.assetQuestionId = q.id && c.conditionType = f.conditionType

/-- `assetQuestion.updateMany`. -/
def clearField (s : MigrationTables) : MigrationTables × Nat :=
  let change : MigratedQuestion → MigratedQuestion := fun q =>
    f.clear { q with modifiedOn := env.now }
  ({ s with
      questions := s.questions.updateMany (isCleared f s) change fun q => f.clear_id _
      category_exists := by
        intro q hq c hc
        obtain ⟨p, hp, rfl⟩ := Table.mem_updateMany.1 hq
        split at hc
        · exact s.category_exists p hp c ((f.clear_le { p with modifiedOn := env.now } c).1 hc)
        · exact s.category_exists p hp c hc
      product_exists := by
        intro q hq c hc
        obtain ⟨p, hp, rfl⟩ := Table.mem_updateMany.1 hq
        split at hc
        · exact s.product_exists p hp c ((f.clear_le { p with modifiedOn := env.now } c).2 hc)
        · exact s.product_exists p hp c hc },
    s.questions.rows.countP (isCleared f s))

def migrateQuestionsToConditions (s : MigrationTables) : MigrationTables × MigrationCounts :=
  let categories := migrateField env productCategoryField s
  let products := migrateField env productField categories.1
  let categoryUpdate := clearField env productCategoryField products.1
  let productUpdate := clearField env productField categoryUpdate.1
  (productUpdate.1,
    { categoryConditionsCreated := categories.2
      productConditionsCreated := products.2
      categoryFieldsCleared := categoryUpdate.2
      productFieldsCleared := productUpdate.2 })

/-! ## 3. The loop -/

section

variable {env : MigrationEnv} {f : DeprecatedField}

/-- A condition of the question contains the id. -/
def Has (f : DeprecatedField) (s : MigrationTables) (q : MigratedQuestion) (id : String) : Prop :=
  ∃ c ∈ s.conditions, c.assetQuestionId = q.id ∧ c.conditionType = f.conditionType ∧
    c.value.arrayContains id = true

theorem conditionExists_iff {s : MigrationTables} {q : MigratedQuestion} {id : String} :
    conditionExists f s q id = true ↔ Has f s q id := by
  simp only [conditionExists, List.any_eq_true, Bool.and_eq_true, decide_eq_true_eq, and_assoc]
  rfl

/-- Only conditions are added. -/
structure Extends (s t : MigrationTables) : Prop where
  questions : t.questions = s.questions
  categories : t.categories = s.categories
  products : t.products = s.products
  conditions : ∀ c ∈ s.conditions, c ∈ t.conditions

theorem Extends.refl (s : MigrationTables) : Extends s s := ⟨rfl, rfl, rfl, fun _ h => h⟩

theorem Extends.trans {s t u : MigrationTables} (h : Extends s t) (h' : Extends t u) :
    Extends s u :=
  ⟨h'.questions.trans h.questions, h'.categories.trans h.categories,
    h'.products.trans h.products, fun c hc => h'.conditions c (h.conditions c hc)⟩

theorem Has.extends {s t : MigrationTables} {q : MigratedQuestion} {id : String}
    (h : Has f s q id) (hext : Extends s t) : Has f t q id := by
  obtain ⟨c, hc, hcond⟩ := h
  exact ⟨c, hext.conditions c hc, hcond⟩

theorem createCondition_extends (s : MigrationTables) (q : MigratedQuestion) (id : String)
    (clientId : Option String) : Extends s (createCondition env f s q id clientId) :=
  ⟨rfl, rfl, rfl, fun _ hc => List.mem_append_left _ hc⟩

theorem has_createCondition (s : MigrationTables) (q : MigratedQuestion) (id : String)
    (clientId : Option String) : Has f (createCondition env f s q id clientId) q id := by
  refine ⟨_, List.mem_append_right _ (List.mem_singleton_self _), rfl, rfl, ?_⟩
  simp [JsonValue.arrayContains]

/-- A question with the field is not passed over: the id is not empty, and what it names is there. -/
theorem subject_of_get {s : MigrationTables} {q : MigratedQuestion} {id : String}
    (hq : q ∈ s.questions) (hget : f.get q = some id) :
    truthy (f.get q) = some id ∧ ∃ subject, (f.get q).bind (f.subjects s).find? = some subject := by
  obtain ⟨subject, hsubject⟩ := Option.isSome_iff_exists.1 (f.subject_exists s q hq id hget)
  have hid : subject.id = id := (Table.find?_eq_some.1 hsubject).2
  refine ⟨truthy_eq_some.2 ⟨hget, hid ▸ subject.drawn⟩, subject, ?_⟩
  rw [hget, Option.bind_some, hsubject]

theorem migrateQuestion_extends (s : MigrationTables × Nat) (q : MigratedQuestion) :
    Extends s.1 (migrateQuestion env f s q).1 := by
  unfold migrateQuestion
  split
  · split
    · exact .refl _
    · exact createCondition_extends ..
  · exact .refl _

theorem has_migrateQuestion {s : MigrationTables × Nat} {q : MigratedQuestion} {id : String}
    (hq : q ∈ s.1.questions) (hget : f.get q = some id) :
    Has f (migrateQuestion env f s q).1 q id := by
  obtain ⟨htruthy, subject, hsubject⟩ := subject_of_get hq hget
  unfold migrateQuestion
  rw [htruthy, hsubject]
  dsimp only
  split
  · rename_i hexists
    exact conditionExists_iff.1 hexists
  · exact has_createCondition ..

theorem foldl_migrateQuestion (qs : List MigratedQuestion) (s : MigrationTables × Nat)
    (hqs : ∀ q ∈ qs, q ∈ s.1.questions) :
    Extends s.1 (qs.foldl (migrateQuestion env f) s).1 ∧
      ∀ q ∈ qs, ∀ id, f.get q = some id → Has f (qs.foldl (migrateQuestion env f) s).1 q id := by
  induction qs generalizing s with
  | nil => exact ⟨.refl _, fun q hq => absurd hq List.not_mem_nil⟩
  | cons p qs ih =>
    have hstep : Extends s.1 (migrateQuestion env f s p).1 := migrateQuestion_extends s p
    have hqs' : ∀ q ∈ qs, q ∈ (migrateQuestion env f s p).1.questions := by
      intro q hq
      rw [hstep.questions]
      exact hqs q (List.mem_cons_of_mem _ hq)
    obtain ⟨hext, hhas⟩ := ih (migrateQuestion env f s p) hqs'
    refine ⟨hstep.trans hext, ?_⟩
    intro q hq id hget
    rcases List.mem_cons.1 hq with rfl | hq
    · exact (has_migrateQuestion (hqs q (List.mem_cons_self ..)) hget).extends hext
    · exact hhas q hq id hget

theorem migrateField_extends (s : MigrationTables) : Extends s (migrateField env f s).1 :=
  (foldl_migrateQuestion _ (s, 0) fun _ hq => (RowOrder.mem_findMany.1 hq).1).1

/-- At the end of the loop, every question that has the field has a condition that contains it. -/
theorem has_migrateField {s : MigrationTables} {q : MigratedQuestion} {id : String}
    (hq : q ∈ s.questions) (hget : f.get q = some id) : Has f (migrateField env f s).1 q id := by
  refine (foldl_migrateQuestion _ (s, 0) fun _ hq => (RowOrder.mem_findMany.1 hq).1).2 q ?_ id hget
  exact RowOrder.mem_findMany.2 ⟨hq, by rw [hget]; rfl⟩

/-- Where no question has the field, the loop has nothing to go over. -/
theorem migrateField_of_none {s : MigrationTables} (h : ∀ q ∈ s.questions, f.get q = none) :
    migrateField env f s = (s, 0) := by
  unfold migrateField
  rw [RowOrder.findMany_eq_nil.2 fun q hq => by rw [h q hq]; rfl]
  rfl

/-! ## 4. The update -/

/-- What the update makes of a question. -/
def cleared (env : MigrationEnv) (f : DeprecatedField) (q : MigratedQuestion) : MigratedQuestion :=
  if (f.get q).isSome then f.clear { q with modifiedOn := env.now } else q

/-- Where every field is in a condition, the update clears every field. -/
theorem mem_clearField {s : MigrationTables}
    (h : ∀ q ∈ s.questions, ∀ id, f.get q = some id → Has f s q id) {q : MigratedQuestion} :
    q ∈ (clearField env f s).1.questions ↔ ∃ p ∈ s.questions, cleared env f p = q := by
  have hsame : ∀ p ∈ s.questions, isCleared f s p = (f.get p).isSome := by
    intro p hp
    cases hget : f.get p with
    | none => rw [isCleared, hget]; rfl
    | some id =>
      obtain ⟨c, hc, hid, htype, -⟩ := h p hp id hget
      rw [isCleared, hget, Option.isSome_some, Bool.true_and, List.any_eq_true]
      exact ⟨c, hc, by simp [hid, htype]⟩
  rw [clearField, Table.mem_updateMany]
  refine exists_congr fun p => and_congr_right fun hp => ?_
  rw [hsame p hp]
  rfl

theorem clearField_of_none {s : MigrationTables} (h : ∀ q ∈ s.questions, f.get q = none) :
    clearField env f s = (s, 0) := by
  have hnone : ∀ q ∈ s.questions, isCleared f s q = false := by
    intro q hq
    rw [isCleared, h q hq]
    rfl
  have hsame : (clearField env f s).1.questions = s.questions := by
    rw [clearField, Table.updateMany_eq_self]
    intro q hq hclear
    rw [hnone q hq] at hclear
    cases hclear
  have hcount : (clearField env f s).2 = 0 :=
    List.countP_eq_zero.2 fun q hq => by simp [hnone q hq]
  exact Prod.ext (MigrationTables.ext hsame rfl rfl rfl) hcount

theorem cleared_id (env : MigrationEnv) (f : DeprecatedField) (q : MigratedQuestion) :
    (cleared env f q).id = q.id := by
  unfold cleared
  split
  · exact f.clear_id _
  · rfl

theorem get_cleared (env : MigrationEnv) (f : DeprecatedField) (q : MigratedQuestion) :
    f.get (cleared env f q) = none := by
  unfold cleared
  split
  · exact f.get_clear _
  · rename_i h
    exact Option.not_isSome_iff_eq_none.1 h

theorem cleared_of_none {q : MigratedQuestion} (h : f.get q = none) : cleared env f q = q := by
  unfold cleared
  rw [h]
  rfl

/-! ## 5. The migration -/

/-- What becomes of a question. -/
def migrated (env : MigrationEnv) (q : MigratedQuestion) : MigratedQuestion :=
  cleared env productField (cleared env productCategoryField q)

theorem productId_cleared (q : MigratedQuestion) :
    (cleared env productCategoryField q).productId = q.productId := by
  unfold cleared
  split <;> rfl

theorem productCategoryId_cleared (q : MigratedQuestion) :
    (cleared env productField q).productCategoryId = q.productCategoryId := by
  unfold cleared
  split <;> rfl

/-- The tables before the first update. -/
def looped (env : MigrationEnv) (s : MigrationTables) : MigrationTables :=
  (migrateField env productField (migrateField env productCategoryField s).1).1

theorem looped_extends (s : MigrationTables) : Extends s (looped env s) :=
  (migrateField_extends s).trans (migrateField_extends _)

theorem has_category_looped {s : MigrationTables} {q : MigratedQuestion} {c : String}
    (hq : q ∈ s.questions) (hc : q.productCategoryId = some c) :
    Has productCategoryField (looped env s) q c :=
  (has_migrateField (f := productCategoryField) hq hc).extends (migrateField_extends _)

theorem has_product_looped {s : MigrationTables} {q : MigratedQuestion} {p : String}
    (hq : q ∈ s.questions) (hp : q.productId = some p) : Has productField (looped env s) q p := by
  have hq' : q ∈ (migrateField env productCategoryField s).1.questions := by
    rw [(migrateField_extends s).questions]
    exact hq
  exact has_migrateField (f := productField) hq' hp

theorem mem_migrated {s : MigrationTables} {q : MigratedQuestion} :
    q ∈ (migrateQuestionsToConditions env s).1.questions ↔ ∃ p ∈ s.questions, migrated env p = q := by
  have hquestions : (looped env s).questions = s.questions := (looped_extends s).questions
  have hfirst : ∀ q, q ∈ (clearField env productCategoryField (looped env s)).1.questions ↔
      ∃ p ∈ s.questions, cleared env productCategoryField p = q := by
    intro q
    rw [mem_clearField, hquestions]
    rw [hquestions]
    exact fun q hq c hc => has_category_looped hq hc
  have hsecond : ∀ q ∈ (clearField env productCategoryField (looped env s)).1.questions, ∀ p,
      productField.get q = some p →
        Has productField (clearField env productCategoryField (looped env s)).1 q p := by
    intro q hq p hp
    obtain ⟨q', hq', rfl⟩ := (hfirst q).1 hq
    have hget : q'.productId = some p := (productId_cleared q').symm.trans hp
    obtain ⟨c, hc, hid, hcond⟩ :
      Has productField (looped env s) q' p := has_product_looped hq' hget
    exact ⟨c, hc, hid.trans (cleared_id ..).symm, hcond⟩
  show q ∈ (clearField env productField
    (clearField env productCategoryField (looped env s)).1).1.questions ↔ _
  rw [mem_clearField hsecond]
  constructor
  · rintro ⟨q', hq', rfl⟩
    obtain ⟨p, hp, rfl⟩ := (hfirst q').1 hq'
    exact ⟨p, hp, rfl⟩
  · rintro ⟨p, hp, rfl⟩
    exact ⟨_, (hfirst _).2 ⟨p, hp, rfl⟩, rfl⟩

/-- Nothing is done where no field is left. -/
theorem migrateQuestionsToConditions_of_none {s : MigrationTables}
    (h : ∀ q ∈ s.questions, q.productCategoryId = none ∧ q.productId = none) :
    migrateQuestionsToConditions env s = (s, ⟨0, 0, 0, 0⟩) := by
  have hcategory : ∀ q ∈ s.questions, productCategoryField.get q = none := fun q hq => (h q hq).1
  have hproduct : ∀ q ∈ s.questions, productField.get q = none := fun q hq => (h q hq).2
  unfold migrateQuestionsToConditions
  simp only [migrateField_of_none hcategory, migrateField_of_none hproduct,
    clearField_of_none hcategory, clearField_of_none hproduct]

theorem fields_migrated (env : MigrationEnv) (q : MigratedQuestion) :
    (migrated env q).productCategoryId = none ∧ (migrated env q).productId = none := by
  refine ⟨?_, get_cleared env productField _⟩
  rw [migrated, productCategoryId_cleared]
  exact get_cleared env productCategoryField q

end

/-- The migration loses nothing: a field that was set is null, and what it named is in a condition of
    the question; the conditions that were there are there, and a question without the fields is as
    it was. Run again, it does nothing. -/
theorem migrateQuestionsToConditions_lossless (env : MigrationEnv) (s : MigrationTables) :
    (∀ q ∈ s.questions, ∃ q' ∈ (migrateQuestionsToConditions env s).1.questions,
      q'.id = q.id ∧ q'.productCategoryId = none ∧ q'.productId = none ∧
        (∀ c, q.productCategoryId = some c →
          Has productCategoryField (migrateQuestionsToConditions env s).1 q c) ∧
        (∀ p, q.productId = some p →
          Has productField (migrateQuestionsToConditions env s).1 q p) ∧
        (q.productCategoryId = none → q.productId = none → q' = q)) ∧
      (∀ c ∈ s.conditions, c ∈ (migrateQuestionsToConditions env s).1.conditions) ∧
      ∀ env', migrateQuestionsToConditions env' (migrateQuestionsToConditions env s).1
        = ((migrateQuestionsToConditions env s).1, ⟨0, 0, 0, 0⟩) := by
  refine ⟨?_, (looped_extends s).conditions, ?_⟩
  · intro q hq
    obtain ⟨hcategory, hproduct⟩ := fields_migrated env q
    refine ⟨migrated env q, mem_migrated.2 ⟨q, hq, rfl⟩, ?_, hcategory, hproduct,
      fun c hc => has_category_looped hq hc, fun p hp => has_product_looped hq hp, ?_⟩
    · rw [migrated, cleared_id, cleared_id]
    · intro hc hp
      rw [migrated, cleared_of_none (f := productCategoryField) hc,
        cleared_of_none (f := productField) hp]
  · intro env'
    refine migrateQuestionsToConditions_of_none fun q hq => ?_
    obtain ⟨p, -, rfl⟩ := mem_migrated.1 hq
    exact fields_migrated env p

end AssetQuestionsService

end ShieldApi
