import JavaMachine.Proofs.MethodTables
import JavaMachine.Proofs.Prefixes

/-!
# Contents of attributes

A content that linking understands is read from the bytes that are written for it, whatever follows
them, and from nothing less: where bytes are missing at its end, the attribute is damaged. Such
attributes are read one after the other, and the last one of a name is the one whose content is
kept. Whether that succeeds does not depend on what has been kept before.
-/

namespace JavaMachine

/-! ### Numbers, blocks and lists -/

namespace Reader

variable {α β : Type} {reader : Reader α} {front : List UInt8} {value : α}

/-- What reads these bytes to their end takes them. -/
theorem Frugal.takes (frugal : reader.Frugal) (read : reader front = .ok (value, [])) :
    reader.Takes front value := by
  obtain ⟨_, same, takes⟩ := frugal.front read
  rw [List.append_nil] at same
  exact same ▸ takes

/-- What is made of the value that is read last. -/
theorem Takes.returning {made : β} {make : α → β} (takes : reader.Takes front value)
    (same : make value = made) : (reader >>= fun value => pure (make value)).Takes front made := by
  subst same
  have takesAll : (reader >>= fun value => pure (make value)).Takes (front ++ []) (make value) :=
    takes.bind ((frugal_pure (make value)).takes rfl)
  rwa [List.append_nil] at takesAll

theorem takes_u2 (number : UInt16) : u2.Takes (Bytes.u2 number) number :=
  frugal_u2.takes (u2_eq_ok.2 (List.append_nil _).symm)

theorem takes_u4 (number : UInt32) : u4.Takes (Bytes.u4 number) number :=
  frugal_u4.takes (u4_eq_ok.2 (List.append_nil _).symm)

theorem takes_innerBlock (content : List UInt8) :
    (innerBlock content.length).Takes content content := by
  refine takes_of_length (fun rest => ?_) fun part short => ⟨.misplacedEnd part.length, ?_, ?_⟩
  · rw [innerBlock, splitExactly_eq_some.2 ⟨rfl, rfl⟩]
  · rw [innerBlock, splitExactly_eq_none.2 short]
  · exact Nat.le_refl _

variable {write : β → List UInt8} {read : β → α} {items : List β}

theorem Takes.times (takes : ∀ item ∈ items, reader.Takes (write item) (read item)) :
    (times reader items.length).Takes (items.flatMap write) (items.map read) := by
  induction items with
  | nil => exact (frugal_pure []).takes rfl
  | cons head rest inductionHypothesis =>
      obtain ⟨takesHead, takesRest⟩ := List.forall_mem_cons.1 takes
      exact takesHead.bind ((inductionHypothesis takesRest).returning rfl)

theorem Takes.counted (short : items.length < UInt16.size)
    (takes : ∀ item ∈ items, reader.Takes (write item) (read item)) :
    (counted reader).Takes (Bytes.counted write items) (items.map read) := by
  have count : (UInt16.ofNat items.length).toNat = items.length :=
    UInt16.toNat_ofNat_of_lt' short
  refine (takes_u2 _).bind ?_
  rw [count]
  exact .times takes

theorem Takes.list {write : α → List UInt8} {items : List α} (short : items.length < UInt16.size)
    (takes : ∀ item ∈ items, reader.Takes (write item) item) :
    (reader.counted).Takes (Bytes.counted write items) items := by
  have mapped : (reader.counted).Takes (Bytes.counted write items) (items.map id) :=
    Takes.counted short takes
  rwa [List.map_id] at mapped

end Reader

open Reader

/-! ### Kinds of contents -/

theorem HandlerRange.takes_read (range : HandlerRange) : read.Takes range.write range := by
  simp only [write, List.append_assoc]
  exact (takes_u2 _).bind <| (takes_u2 _).bind <| (takes_u2 _).bind <| (takes_u2 _).returning rfl

theorem InnerClass.takes_read (item : InnerClass) : read.Takes item.write item := by
  simp only [write, List.append_assoc]
  exact (takes_u2 _).bind <| (takes_u2 _).bind <| (takes_u2 _).bind <| (takes_u2 _).returning rfl

theorem InnerClass.takes_list {items : List InnerClass} (short : items.length < UInt16.size) :
    (counted read).Takes (Bytes.counted write items) items :=
  .list short fun item _ => item.takes_read

theorem BootstrapMethod.takes_read {item : BootstrapMethod}
    (short : item.arguments.length < UInt16.size) : read.Takes item.write item := by
  have arguments := Takes.list short fun index _ => takes_u2 index
  exact (takes_u2 _).bind (arguments.returning rfl)

theorem BootstrapMethod.takes_list {items : List BootstrapMethod}
    (short : items.length < UInt16.size)
    (each : ∀ item ∈ items, item.arguments.length < UInt16.size) :
    (counted read).Takes (Bytes.counted write items) items :=
  .list short fun item listed => takes_read (each item listed)

namespace Code

/-- The lengths in the content of a code attribute fit the numbers that announce them. -/
structure Fits (code : Code) (nested : List Attribute) : Prop where
  bytes : code.bytes.length < UInt32.size
  handlers : code.handlers.length < UInt16.size
  attributes : nested.length < UInt16.size
  contents : ∀ block ∈ nested, block.content.length < UInt32.size

theorem takes_skipAttribute {block : Attribute} (short : block.content.length < UInt32.size) :
    skipAttribute.Takes block.write () := by
  have size : (UInt32.ofNat block.content.length).toNat = block.content.length :=
    UInt32.toNat_ofNat_of_lt' short
  have content := takes_innerBlock block.content
  rw [← size] at content
  simp only [Attribute.write, List.append_assoc]
  exact (takes_u2 _).bind <| (takes_u4 _).bind <| content.returning rfl

/-- Nothing is kept of the nested attributes, but their lengths have to be right. -/
theorem takes_read {code : Code} {nested : List Attribute} (fits : code.Fits nested) :
    read.Takes (code.write nested) code := by
  have size : (UInt32.ofNat code.bytes.length).toNat = code.bytes.length :=
    UInt32.toNat_ofNat_of_lt' fits.bytes
  have bytes := takes_innerBlock code.bytes
  rw [← size] at bytes
  have handlers := Takes.list fits.handlers fun range _ => HandlerRange.takes_read range
  have skipped : (counted skipAttribute).Takes (Bytes.counted Attribute.write nested)
      (nested.map fun _ => ()) :=
    Takes.counted fits.attributes fun block listed =>
      takes_skipAttribute (fits.contents block listed)
  simp only [write, List.append_assoc]
  exact (takes_u2 _).bind <| (takes_u2 _).bind <| (takes_u4 _).bind <| bytes.bind <|
    handlers.bind <| skipped.returning rfl

end Code

/-! ### Attributes in order -/

namespace Except

variable {ε α β γ : Type} {attempt other : Except ε α} {next otherNext : α → Except ε β}
  {causes : ε → Prop}

/-- Whether an attempt succeeds, and with which error it fails if it does not. -/
def ending (attempt : Except ε α) : Except ε Unit := attempt.map fun _ => ()

/-- Attempts with results that look the same fail both, or neither does. -/
theorem cases_of_map_eq {look : α → γ} (same : attempt.map look = other.map look) :
    (∃ cause, attempt = .error cause ∧ other = .error cause) ∨
      ∃ result otherResult, attempt = .ok result ∧ other = .ok otherResult ∧
        look result = look otherResult := by
  cases attempt with
  | error cause =>
      cases other with
      | error otherCause =>
          cases same
          exact .inl ⟨cause, rfl, rfl⟩
      | ok result => cases same
  | ok result =>
      cases other with
      | error cause => cases same
      | ok otherResult => exact .inr ⟨result, otherResult, rfl, rfl, Except.ok.inj same⟩

theorem ending_bind (same : ∀ result, ending (next result) = ending (otherNext result)) :
    ending (attempt >>= next) = ending (attempt >>= otherNext) := by
  cases attempt with
  | error cause => rfl
  | ok result => exact same result

/-- The attempt ends like another one, unless it fails for one of some causes. -/
def EndsLike (attempt other : Except ε α) (causes : ε → Prop) : Prop :=
  ending attempt = ending other ∨ ∃ cause, causes cause ∧ attempt = .error cause

theorem EndsLike.bind (first : EndsLike attempt other causes)
    (rest : ∀ result otherResult, attempt = .ok result → other = .ok otherResult →
      EndsLike (next result) (otherNext otherResult) causes) :
    EndsLike (attempt >>= next) (other >>= otherNext) causes := by
  rcases first with same | ⟨cause, isCause, rfl⟩
  · rcases cases_of_map_eq same with ⟨cause, rfl, rfl⟩ | ⟨result, otherResult, rfl, rfl, _⟩
    · exact .inl rfl
    · exact rest result otherResult rfl rfl
  · exact .inr ⟨cause, isCause, rfl⟩

theorem EndsLike.bindSame (rest : ∀ result, EndsLike (next result) (otherNext result) causes) :
    EndsLike (attempt >>= next) (attempt >>= otherNext) causes :=
  .bind (.inl rfl) fun result _ reached reachedToo => by
    cases reached.symm.trans reachedToo
    exact rest result

end Except

namespace Attribute

variable {α : Type} {reader : Reader α} {front : List UInt8} {value : α}

theorem readAs_of_takes (takes : reader.Takes front value) (index : UInt16)
    (trailing : List UInt8) : readAs ⟨index, front ++ trailing⟩ reader = .ok value := by
  have read : reader.run' (front ++ trailing) = .ok value := by
    rw [StateT.run', takes.takes trailing]
    rfl
  rw [readAs, read]

theorem readAs_of_misses (takes : reader.Takes front value) (index : UInt16)
    {part : List UInt8} (within : part <+: front) (proper : part ≠ front) :
    ∃ damage, readAs ⟨index, part⟩ reader = .error (.damaged damage) := by
  obtain ⟨damage, fails, _⟩ := takes.misses part within proper
  have read : reader.run' part = .error damage := by
    rw [StateT.run', fails]
    rfl
  exact ⟨damage, by rw [readAs, read]⟩

end Attribute

/-- What has attributes of which something is kept. -/
inductive AttributeHolder where
  | method
  | type

namespace AttributeHolder

/-- What is kept of attributes. -/
@[reducible] def Kept : AttributeHolder → Type
  | method => Option Code
  | type => ClassAttributes

/-- What is kept of no attributes. -/
def nothing : (holder : AttributeHolder) → holder.Kept
  | method => none
  | type => {}

variable {file : ClassFile} {holder : AttributeHolder} {kept later : holder.Kept}
  {block : Attribute} {front back blocks : List Attribute}

/-- What is kept after one more attribute. -/
def keep (file : ClassFile) : (holder : AttributeHolder) → holder.Kept → Attribute →
    Except LinkageError holder.Kept
  | method, found, block => do
      if (← file.requireText block.name) = "Code" then return some (← block.readAs Code.read)
      else return found
  | type, attributes, block => ClassAttributes.add file attributes block

/-- What is kept of some attributes. -/
def keepAll (file : ClassFile) (holder : AttributeHolder) (blocks : List Attribute) :
    Except LinkageError holder.Kept :=
  blocks.foldlM (keep file holder) holder.nothing

theorem codeIn_eq_keepAll (file : ClassFile) (blocks : List Attribute) :
    Method.codeIn file blocks none = keepAll file .method blocks := by
  suffices folds : ∀ found, Method.codeIn file blocks found =
      blocks.foldlM (keep file .method) found from folds none
  intro found
  induction blocks generalizing found with
  | nil => rfl
  | cons block rest inductionHypothesis =>
      rw [List.foldlM_cons, Method.codeIn, keep]
      cases file.requireText block.name with
      | error cause => rfl
      | ok name =>
          simp only [bind, Except.bind]
          split
          · cases block.readAs Code.read with
            | error cause => rfl
            | ok code => exact inductionHypothesis _
          · exact inductionHypothesis _

/-- What has been kept before does not matter to whether an attribute can be read. -/
theorem ending_keep (kept other : holder.Kept) (block : Attribute) :
    Except.ending (keep file holder kept block) = Except.ending (keep file holder other block) := by
  cases holder with
  | method =>
      refine Except.ending_bind fun name => ?_
      split
      · exact Except.ending_bind fun _ => rfl
      · rfl
  | type =>
      refine Except.ending_bind fun name => ?_
      split
      · exact Except.ending_bind fun _ => Except.ending_bind fun _ => rfl
      · exact Except.ending_bind fun _ => Except.ending_bind fun _ => rfl
      · exact Except.ending_bind fun _ => rfl
      · exact Except.ending_bind fun _ => rfl
      · exact Except.ending_bind fun _ => rfl
      · rfl

theorem ending_foldlM_keep (kept other : holder.Kept) (blocks : List Attribute) :
    Except.ending (blocks.foldlM (keep file holder) kept) =
      Except.ending (blocks.foldlM (keep file holder) other) := by
  induction blocks generalizing kept other with
  | nil => rfl
  | cons block rest inductionHypothesis =>
      rw [List.foldlM_cons, List.foldlM_cons]
      rcases Except.cases_of_map_eq (ending_keep kept other block) with
        ⟨cause, fails, failsToo⟩ | ⟨later, laterToo, keeps, keepsToo, _⟩
      · rw [fails, failsToo]
      · rw [keeps, keepsToo]
        exact inductionHypothesis later laterToo

/-- One more attribute among others makes no difference to whether they can be read, unless it
cannot be read itself for one of some causes. -/
theorem keepAll_endsLike {causes : LinkageError → Prop}
    (reads : ∀ kept, Except.EndsLike (keep file holder kept block) (.ok kept) causes) :
    Except.EndsLike (keepAll file holder (front ++ block :: back))
      (keepAll file holder (front ++ back)) causes := by
  rw [keepAll, keepAll, List.foldlM_append, List.foldlM_append]
  refine .bindSame fun kept => ?_
  rw [List.foldlM_cons]
  change Except.EndsLike _ (.ok kept >>= fun kept => back.foldlM (keep file holder) kept) causes
  exact (reads kept).bind fun later _ _ _ => .inl (ending_foldlM_keep later _ back)

end AttributeHolder

/-! ### Payloads -/

/-- A content of which linking keeps something. -/
inductive Payload : AttributeHolder → Type where
  | code (code : Code) (nested : List Attribute) : Payload .method
  | innerClasses (items : List InnerClass) : Payload .type
  | bootstrapMethods (items : List BootstrapMethod) : Payload .type

namespace Payload

variable {holder : AttributeHolder}

/-- The name of the attributes with such contents. -/
def name : Payload holder → String
  | code _ _ => "Code"
  | innerClasses _ => "InnerClasses"
  | bootstrapMethods _ => "BootstrapMethods"

/-- The bytes of a content. -/
def write : Payload holder → List UInt8
  | code body nested => body.write nested
  | innerClasses items => Bytes.counted InnerClass.write items
  | bootstrapMethods items => Bytes.counted BootstrapMethod.write items

/-- The lengths in a content fit the numbers that announce them. -/
def Fits : Payload holder → Prop
  | code body nested => body.Fits nested
  | innerClasses items => items.length < UInt16.size
  | bootstrapMethods items => items.length < UInt16.size ∧
      ∀ item ∈ items, item.arguments.length < UInt16.size

/-- What is kept is this content. -/
def IsKept : (payload : Payload holder) → holder.Kept → Prop
  | code body _, kept => kept = some body
  | innerClasses items, kept => kept.innerClasses = items
  | bootstrapMethods items, kept => kept.bootstrapMethods = items

variable {file : ClassFile} {payload : Payload holder} {index : UInt16} {kept later : holder.Kept}
  {block : Attribute}

theorem keep_code {found : Option Code} (named : file.text? block.name = some "Code") :
    AttributeHolder.keep file .method found block = (block.readAs Code.read).map some := by
  rw [AttributeHolder.keep, ClassFile.requireText_eq_ok.2 named]
  cases block.readAs Code.read <;> rfl

theorem keep_innerClasses {attributes : ClassAttributes}
    (named : file.text? block.name = some "InnerClasses") :
    AttributeHolder.keep file .type attributes block =
      (block.readAs (counted InnerClass.read)).map fun items =>
        { attributes with innerClasses := items } := by
  rw [AttributeHolder.keep, ClassAttributes.add, ClassFile.requireText_eq_ok.2 named]
  cases block.readAs (counted InnerClass.read) <;> rfl

theorem keep_bootstrapMethods {attributes : ClassAttributes}
    (named : file.text? block.name = some "BootstrapMethods") :
    AttributeHolder.keep file .type attributes block =
      (block.readAs (counted BootstrapMethod.read)).map fun items =>
        { attributes with bootstrapMethods := items } := by
  rw [AttributeHolder.keep, ClassAttributes.add, ClassFile.requireText_eq_ok.2 named]
  cases block.readAs (counted BootstrapMethod.read) <;> rfl

/-- A content is kept as it was written, whatever follows it. -/
theorem keep_write (fits : payload.Fits) (named : file.text? index = some payload.name)
    (kept : holder.Kept) (trailing : List UInt8) : ∃ later,
      holder.keep file kept ⟨index, payload.write ++ trailing⟩ = .ok later ∧
        payload.IsKept later := by
  cases payload with
  | code body nested =>
      have read := Attribute.readAs_of_takes (Code.takes_read fits) index trailing
      exact ⟨some body, by rw [keep_code named, write, read]; rfl, rfl⟩
  | innerClasses items =>
      have read := Attribute.readAs_of_takes (InnerClass.takes_list fits) index trailing
      exact ⟨{ kept with innerClasses := items },
        by rw [keep_innerClasses named, write, read]; rfl, rfl⟩
  | bootstrapMethods items =>
      have takes := BootstrapMethod.takes_list fits.1 fits.2
      have read := Attribute.readAs_of_takes takes index trailing
      exact ⟨{ kept with bootstrapMethods := items },
        by rw [keep_bootstrapMethods named, write, read]; rfl, rfl⟩

/-- A content that is cut is damaged. -/
theorem keep_part (fits : payload.Fits) (named : file.text? index = some payload.name)
    {part : List UInt8} (within : part <+: payload.write) (proper : part ≠ payload.write) :
    ∃ damage, ∀ kept, holder.keep file kept ⟨index, part⟩ =
      .error (.damaged damage) := by
  cases payload with
  | code body nested =>
      obtain ⟨damage, fails⟩ :=
        Attribute.readAs_of_misses (Code.takes_read fits) index within proper
      exact ⟨damage, fun kept => by rw [keep_code named, fails]; rfl⟩
  | innerClasses items =>
      have takes := InnerClass.takes_list fits
      obtain ⟨damage, fails⟩ := Attribute.readAs_of_misses takes index within proper
      exact ⟨damage, fun kept => by rw [keep_innerClasses named, fails]; rfl⟩
  | bootstrapMethods items =>
      have takes := BootstrapMethod.takes_list fits.1 fits.2
      obtain ⟨damage, fails⟩ := Attribute.readAs_of_misses takes index within proper
      exact ⟨damage, fun kept => by rw [keep_bootstrapMethods named, fails]; rfl⟩

/-- Attributes of other names leave what is kept. -/
theorem IsKept.keep (isKept : payload.IsKept kept)
    (unnamed : file.text? block.name ≠ some payload.name)
    (keeps : holder.keep file kept block = .ok later) : payload.IsKept later := by
  cases holder with
  | method =>
      obtain ⟨text, known, keeps⟩ := Except.bind_ok keeps
      have named := ClassFile.requireText_eq_ok.1 known
      cases payload with
      | code body nested =>
          have other : text ≠ "Code" := fun same => unnamed (named.trans (congrArg some same))
          rw [if_neg other] at keeps
          cases keeps
          exact isKept
  | type =>
      obtain ⟨text, known, keeps⟩ := Except.bind_ok keeps
      have named := ClassFile.requireText_eq_ok.1 known
      split at keeps
      · obtain ⟨_, _, keeps⟩ := Except.bind_ok keeps
        obtain ⟨_, _, keeps⟩ := Except.bind_ok keeps
        cases keeps
        cases payload <;> exact isKept
      · obtain ⟨_, _, keeps⟩ := Except.bind_ok keeps
        obtain ⟨_, _, keeps⟩ := Except.bind_ok keeps
        cases keeps
        cases payload <;> exact isKept
      · obtain ⟨_, _, keeps⟩ := Except.bind_ok keeps
        cases keeps
        cases payload with
        | innerClasses items => exact absurd named unnamed
        | bootstrapMethods items => exact isKept
      · obtain ⟨_, _, keeps⟩ := Except.bind_ok keeps
        cases keeps
        cases payload <;> exact isKept
      · obtain ⟨_, _, keeps⟩ := Except.bind_ok keeps
        cases keeps
        cases payload with
        | innerClasses items => exact isKept
        | bootstrapMethods items => exact absurd named unnamed
      · cases keeps
        exact isKept

theorem IsKept.foldlM_keep {blocks : List Attribute} (isKept : payload.IsKept kept)
    (unnamed : ∀ block ∈ blocks, file.text? block.name ≠ some payload.name)
    (keeps : blocks.foldlM (holder.keep file) kept = .ok later) : payload.IsKept later := by
  induction blocks generalizing kept with
  | nil =>
      cases keeps
      exact isKept
  | cons block rest inductionHypothesis =>
      obtain ⟨unnamedHead, unnamedRest⟩ := List.forall_mem_cons.1 unnamed
      rw [List.foldlM_cons] at keeps
      obtain ⟨middle, keepsHead, keepsRest⟩ := Except.bind_ok keeps
      exact inductionHypothesis (isKept.keep unnamedHead keepsHead) unnamedRest keepsRest

/-! ### Payloads among other attributes -/

variable {front back : List Attribute} {causes : LinkageError → Prop}

/-- Reading a payload, whatever follows it, makes no difference to whether attributes can be read.
-/
theorem keepAll_write (fits : payload.Fits) (named : file.text? index = some payload.name)
    (trailing : List UInt8) :
    Except.EndsLike (holder.keepAll file (front ++ ⟨index, payload.write ++ trailing⟩ :: back))
      (holder.keepAll file (front ++ back)) fun _ => False := by
  refine AttributeHolder.keepAll_endsLike fun kept => .inl ?_
  obtain ⟨later, keeps, _⟩ := keep_write fits named kept trailing
  rw [keeps]
  rfl

/-- With a payload that is cut attributes cannot be read, if not for another reason then because of
its damage. -/
theorem keepAll_part (fits : payload.Fits) (named : file.text? index = some payload.name)
    {part : List UInt8} (within : part <+: payload.write) (proper : part ≠ payload.write) :
    (∀ kept, holder.keepAll file (front ++ ⟨index, part⟩ :: back) ≠ .ok kept) ∧
    Except.EndsLike (holder.keepAll file (front ++ ⟨index, part⟩ :: back))
      (holder.keepAll file (front ++ back)) fun cause => ∃ damage, cause = .damaged damage := by
  obtain ⟨damage, fails⟩ := keep_part fits named within proper
  refine ⟨fun kept keeps => ?_, ?_⟩
  · rw [AttributeHolder.keepAll, List.foldlM_append] at keeps
    obtain ⟨middle, _, keeps⟩ := Except.bind_ok keeps
    rw [List.foldlM_cons, fails] at keeps
    cases keeps
  · exact AttributeHolder.keepAll_endsLike fun kept => .inr ⟨_, ⟨damage, rfl⟩, fails kept⟩

/-- Of a payload that is the last of its name the content is kept. -/
theorem isKept_of_keepAll (fits : payload.Fits) (named : file.text? index = some payload.name)
    (last : ∀ block ∈ back, file.text? block.name ≠ some payload.name) {trailing : List UInt8}
    (keeps : holder.keepAll file (front ++ ⟨index, payload.write ++ trailing⟩ :: back) =
      .ok kept) : payload.IsKept kept := by
  rw [AttributeHolder.keepAll, List.foldlM_append] at keeps
  obtain ⟨before, _, keeps⟩ := Except.bind_ok keeps
  rw [List.foldlM_cons] at keeps
  obtain ⟨middle, keepsOwn, keepsBack⟩ := Except.bind_ok keeps
  obtain ⟨own, keepsToo, isKept⟩ := keep_write fits named before trailing
  cases keepsOwn.symm.trans keepsToo
  exact isKept.foldlM_keep last keepsBack

end Payload
end JavaMachine
