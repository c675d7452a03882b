import DocAnnotations.Proofs.Attribute.Reading
import DocAnnotations.Proofs.Attribute.Writing
import DocAnnotations.Proofs.Value.Everywhere

/-!
# Written values, read again

What a reader makes of the bytes of a value can be said without bytes.  `reread` walks over the
value itself: it sends class and enum names through their descriptors, looks up every type that it
meets, adds up the elements of an annotation as a reader does, and completes annotations from
defaults.  It fails exactly where the reader fails, and with the same error.

**Readers and levels.**  A reader has a number of levels left for what is inside, and so has
`reread`.  `innerReader` is the reader that remains one level further down, if any does.

**Arrays and annotations.**  **`readsAs_readValue`** says that the reader does what `reread` does,
for every value that can be written.  The induction is over the value, and within it over the values
and elements in a row.

**Whole attributes.**  `readAll_readTopLevel` and `readAll_readMember` say it for whole attributes.
None of them asks that the value has the types it should have, so all that is known about reading
back is a statement about `reread`.
-/

namespace DocAnnotations.Attribute

variable (types : TypeLookup) (defaultsFor : Interface → Load Annotation)

/-! ## Reading without bytes -/

/-- A class reference after its descriptor has been written and read. -/
def rereadClass (c : ClassRef) : Load ClassRef :=
  match ClassRef.ofDescriptor? c.descriptor with
  | none => throw (.invalidDescriptor c.descriptor)
  | some d =>
    if d.isPrimitive || types.isClass d.name then return d else throw (.classNotFound d.name)

/-- An enum constant after the descriptor of its type has been written and read. -/
def rereadEnum (e : EnumRef) : Load EnumRef :=
  match objectName? (objectDescriptor e.typeName) with
  | none => throw (.invalidDescriptor (objectDescriptor e.typeName))
  | some typeName =>
    match types.enumeration? typeName with
    | none => throw (.classNotFound typeName)
    | some found =>
      if found.hasConstant e.constant then return ⟨typeName, e.constant⟩
      else throw (.constantNotFound typeName e.constant)

mutual

/-- A value after it has been written and read, where the given number of arrays and annotations may
be opened. -/
def reread (left : Nat) : Value → Load Value
  | .classRef c => do return .classRef (← rereadClass types c)
  | .enum e => do return .enum (← rereadEnum types e)
  | .nested a => do return .nested (← rereadBody left a)
  | .array vs =>
    match left with
    | 0 => throw (.tooDeep nestingLimit)
    | left + 1 => do return .array (← rereadValues left vs)
  | v => return v

/-- Several values after they have been written and read. -/
def rereadValues (left : Nat) : List Value → Load (List Value)
  | [] => return []
  | v :: vs => do
    let w ← reread left v
    return w :: (← rereadValues left vs)

/-- An annotation after it has been written and read. -/
def rereadBody (left : Nat) : Annotation → Load Annotation
  | ⟨name, elements⟩ =>
    match left with
    | 0 => throw (.tooDeep nestingLimit)
    | left + 1 =>
      match types.annotation? name with
      | none => throw (.interfaceNotFound name)
      | some interface => do
        let a ← rereadElements left interface elements (.empty name)
        if a.size < interface.elements.length then return completed a (← defaultsFor interface)
        else return a

/-- Several elements of an annotation after they have been written and read, added to those
already there. -/
def rereadElements (left : Nat) (interface : Interface) :
    List (String × Value) → Annotation → Load Annotation
  | [], a => return a
  | (name, v) :: es, a => do
    let v ← reread left v
    match interface.element? name with
    | none => throw (.unknownElement interface.name name)
    | some e =>
      if !v.conforms e.type then
        throw (.typeMismatch interface.name name e.type v.kindName)
      else if a.contains name then throw (.duplicateElement interface.name name)
      else rereadElements left interface es (a.insert name v)

end

/-- Several annotations after they have been written and read. -/
def rereadAnnotations (left : Nat) : List Annotation → Load (List Annotation)
  | [] => return []
  | a :: annotations => do
    let b ← rereadBody types defaultsFor left a
    return b :: (← rereadAnnotations left annotations)

/-! ## Readers and levels -/

variable {types defaultsFor}

lemma rereadBody_succ {a : Annotation} {interface : Interface} (left : Nat)
    (found : types.annotation? a.typeName = some interface) :
    rereadBody types defaultsFor (left + 1) a = (do
      let b ← rereadElements types defaultsFor left interface a.elements (.empty a.typeName)
      if b.size < interface.elements.length then return completed b (← defaultsFor interface)
      else return b) := by
  cases a
  dsimp only at found
  rw [rereadBody, found]

/-- The reader of what is inside a value, when the given number of arrays and annotations may be
opened. -/
def innerReader (types : TypeLookup) (defaultsFor : Interface → Load Annotation) :
    Nat → Option (Read Value)
  | 0 => none
  | left + 1 => some (readValue types defaultsFor left)

lemma readValue_eq (left : Nat) :
    readValue types defaultsFor left
      = readValueWith types defaultsFor (innerReader types defaultsFor left) := by
  cases left <;> rfl

/-- Behind the tag of a value, the reader does what it does with the payload of this tag. -/
lemma readsAs_tagged {tag : Tag} {inner : Option (Read Value)} {bytes : List UInt8}
    {q : Load Value} (h : ReadsAs (readPayload types defaultsFor inner tag) bytes q) :
    ReadsAs (readValueWith types defaultsFor inner) (tag.toByte :: bytes) q := by
  refine readsAs_currentOffset_bind fun offset => ?_
  refine readsAs_readByte_bind ?_
  rw [Tag.ofByte?_toByte]
  exact h

/-! ## Values without values inside -/

/-- A number is read back as the word whose bits were written. -/
lemma readsAs_word {α : Type} (width : Nat) {bits : Nat} (ofNat : Nat → α) {word : α}
    (small : bits < 256 ^ width) (same : ofNat bits = word) (wrap : α → Value) :
    ReadsAs (do return wrap (ofNat (← readNumber width))) (bigEndian width bits)
      (pure (wrap word)) := by
  have read := (readsAs_readNumber small).known_map fun n => wrap (ofNat n)
  rwa [same] at read

lemma readsAs_readBoolean (b : Bool) :
    ReadsAs readBoolean [if b then 1 else 0] (pure b) := by
  refine readsAs_currentOffset_bind fun offset => ?_
  refine readsAs_readByte_bind ?_
  cases b <;> exact ReadsAs.pure _

/-- A character is no half of a surrogate pair, so its code is read back. -/
lemma readsAs_readChar {c : Char} (small : c.toNat < 256 ^ 2) :
    ReadsAs readChar (bigEndian 2 c.toNat) (pure c) := by
  refine readsAs_currentOffset_bind fun offset => ?_
  rw [← List.append_nil (bigEndian 2 c.toNat)]
  refine (readsAs_readNumber small).known_bind ?_
  have valid : c.toNat.isValidChar := c.valid
  rw [if_pos valid, Char.ofNat_toNat]
  exact ReadsAs.pure c

/-- A class is read back from the bytes of its descriptor, checked against the index in the
course. -/
lemma readsAs_readClass {part : Part} {c : ClassRef} {bytes : List UInt8}
    (h : textBytes part c.descriptor = .ok bytes) :
    ReadsAs (readClass types) bytes (rereadClass types c) := by
  rw [← List.append_nil bytes]
  refine (readsAs_readText h).known_bind ?_
  rw [rereadClass]
  cases ClassRef.ofDescriptor? c.descriptor with
  | none => exact ReadsAs.throw _ _
  | some d =>
      dsimp only
      split_ifs
      · exact ReadsAs.pure d
      · exact ReadsAs.throw _ _

/-- An enum constant is read back from the bytes of its descriptor and of its name, and both are
checked. -/
lemma readsAs_readEnum {first second : Part} {e : EnumRef} {front back : List UInt8}
    (type : textBytes first (objectDescriptor e.typeName) = .ok front)
    (constant : textBytes second e.constant = .ok back) :
    ReadsAs (readEnum types) (front ++ back) (rereadEnum types e) := by
  refine (readsAs_readText type).known_bind ?_
  rw [← List.append_nil back]
  refine (readsAs_readText constant).known_bind ?_
  rw [rereadEnum]
  cases objectName? (objectDescriptor e.typeName) with
  | none => exact ReadsAs.throw _ _
  | some typeName =>
      dsimp only
      cases types.enumeration? typeName with
      | none => exact ReadsAs.throw _ _
      | some found =>
          dsimp only
          split_ifs
          · exact ReadsAs.pure _
          · exact ReadsAs.throw _ _

/-! ## Arrays and annotations -/

/-- Whatever a value is written as, a reader makes of it what `reread` makes of the value. -/
def Rereads (types : TypeLookup) (defaultsFor : Interface → Load Annotation) (v : Value) : Prop :=
  ∀ (left : Nat) {bytes : List UInt8}, valueBytes v = .ok bytes →
    ReadsAs (readValue types defaultsFor left) bytes (reread types defaultsFor left v)

/-- If each of several values is reread from its bytes, the counted list of them is reread in
order. -/
lemma readsAs_readValues (left : Nat) : ∀ {vs : List Value} (found : List Value)
    {bytes : List UInt8}, (∀ v ∈ vs, Rereads types defaultsFor v) →
    concatBytes valueBytes vs = .ok bytes →
    ReadsAs (readValues (readValue types defaultsFor left) vs.length found) bytes
      (do return found.reverse ++ (← rereadValues types defaultsFor left vs))
  | [], found, bytes, _, h => by
      cases Except.ok.inj h
      simpa [readValues, rereadValues] using ReadsAs.pure found.reverse
  | v :: vs, found, bytes, items, h => by
      obtain ⟨item, rest⟩ := List.forall_mem_cons.1 items
      obtain ⟨front, back, first, others, rfl⟩ := concatBytes_cons_ok h
      have step := (item left first).bind fun w =>
        readsAs_readValues left (w :: found) rest others
      rw [List.length_cons, readValues, rereadValues]
      simpa using step

/-- If each value of some elements is reread from its bytes, the elements are reread in order,
behind those found before. -/
lemma readsAs_readElements (left : Nat) {interface : Interface} :
    ∀ {es : List (String × Value)} (a : Annotation) {bytes : List UInt8},
    (∀ p ∈ es, Rereads types defaultsFor p.2) → concatBytes elementBytes es = .ok bytes →
    ReadsAs (readElements (readValue types defaultsFor left) interface es.length a) bytes
      (rereadElements types defaultsFor left interface es a)
  | [], a, bytes, _, h => by
      cases Except.ok.inj h
      rw [rereadElements]
      exact ReadsAs.pure a
  | (name, v) :: es, a, bytes, items, h => by
      obtain ⟨item, rest⟩ := List.forall_mem_cons.1 items
      obtain ⟨front, back, first, others, rfl⟩ := concatBytes_cons_ok h
      obtain ⟨nameBytes, valueBytes, hname, hvalue, rfl⟩ := elementBytes_ok first
      rw [List.length_cons, readElements, rereadElements, List.append_assoc]
      refine (readsAs_readText hname).known_bind ((item left hvalue).bind fun w => ?_)
      cases interface.element? name with
      | none => exact ReadsAs.throw _ _
      | some e =>
          dsimp only
          split_ifs
          · exact ReadsAs.throw _ _
          · exact ReadsAs.throw _ _
          · exact readsAs_readElements left (a.insert name w) rest others

/-- Behind its tag, an annotation is reread from its name, the number of its elements and these
themselves. -/
lemma readsAs_readBody (left : Nat) {a : Annotation} {bytes : List UInt8}
    (items : ∀ p ∈ a.elements, Rereads types defaultsFor p.2)
    (h : annotationBytes a = .ok bytes) :
    ∃ body, bytes = Tag.nested.toByte :: body ∧
      ReadsAs (readBody types defaultsFor (innerReader types defaultsFor left)) body
        (rereadBody types defaultsFor left a) := by
  obtain ⟨nameBytes, count, elements, hname, hcount, helements, rfl⟩ := annotationBytes_ok h
  refine ⟨_, rfl, ?_⟩
  obtain ⟨name, es⟩ := a
  cases left with
  | zero => exact ReadsAs.throw _ _
  | succ left =>
      rw [rereadBody]
      refine (readsAs_readText hname).known_bind ?_
      cases types.annotation? name with
      | none => exact ReadsAs.throw _ _
      | some interface =>
          refine (readsAs_readLength hcount).known_bind ?_
          rw [← List.append_nil elements]
          refine (readsAs_readElements left _ items helements).bind fun a => ?_
          split_ifs
          · exact (ReadsAs.ofLoad (defaultsFor interface)).map (completed a)
          · exact ReadsAs.pure a

/-- What a reader makes of the bytes of a value. -/
theorem readsAs_readValue (v : Value) : Rereads types defaultsFor v := by
  induction v using Value.treeInduction with
  | byte n =>
      intro left bytes h
      cases Except.ok.inj h
      rw [readValue_eq]
      exact readsAs_tagged (readsAs_word 1 _ n.toBitVec.isLt (by simp) _)
  | short n =>
      intro left bytes h
      cases Except.ok.inj h
      rw [readValue_eq]
      exact readsAs_tagged (readsAs_word 2 _ n.toBitVec.isLt (by simp) _)
  | int n =>
      intro left bytes h
      cases Except.ok.inj h
      rw [readValue_eq]
      exact readsAs_tagged (readsAs_word 4 _ n.toBitVec.isLt (by simp) _)
  | long n =>
      intro left bytes h
      cases Except.ok.inj h
      rw [readValue_eq]
      exact readsAs_tagged (readsAs_word 8 _ n.toBitVec.isLt (by simp) _)
  | float bits =>
      intro left bytes h
      cases Except.ok.inj h
      rw [readValue_eq]
      exact readsAs_tagged (readsAs_word 4 _ bits.toNat_lt (by simp) _)
  | double bits =>
      intro left bytes h
      cases Except.ok.inj h
      rw [readValue_eq]
      exact readsAs_tagged (readsAs_word 8 _ bits.toNat_lt (by simp) _)
  | boolean b =>
      intro left bytes h
      cases Except.ok.inj h
      rw [readValue_eq]
      exact readsAs_tagged ((readsAs_readBoolean b).known_map Value.boolean)
  | char c =>
      intro left bytes h
      obtain ⟨small, rfl⟩ := charBytes_ok h
      rw [readValue_eq]
      exact readsAs_tagged ((readsAs_readChar small).known_map Value.char)
  | string s =>
      intro left bytes h
      obtain ⟨text, htext, rfl⟩ := stringBytes_ok h
      rw [readValue_eq]
      exact readsAs_tagged ((readsAs_readText htext).known_map Value.string)
  | classRef c =>
      intro left bytes h
      obtain ⟨text, htext, rfl⟩ := classBytes_ok h
      rw [readValue_eq]
      exact readsAs_tagged ((readsAs_readClass htext).map Value.classRef)
  | enum e =>
      intro left bytes h
      obtain ⟨type, constant, htype, hconstant, rfl⟩ := enumBytes_ok h
      rw [readValue_eq]
      exact readsAs_tagged ((readsAs_readEnum htype hconstant).map Value.enum)
  | nested a ih =>
      intro left bytes h
      obtain ⟨body, rfl, read⟩ := readsAs_readBody left ih h
      rw [readValue_eq]
      exact readsAs_tagged (read.map Value.nested)
  | array vs ih =>
      intro left bytes h
      obtain ⟨count, items, hcount, hitems, rfl⟩ := arrayBytes_ok h
      rw [readValue_eq]
      refine readsAs_tagged ?_
      cases left with
      | zero => exact ReadsAs.throw _ _
      | succ left =>
          rw [reread]
          refine (readsAs_readLength hcount).known_bind ?_
          simpa using (readsAs_readValues left [] ih hitems).map Value.array

/-! ## Whole attributes -/

variable (types defaultsFor)

/-- An annotation that stands by itself is reread with all levels left. -/
lemma readsAs_readTopLevel {a : Annotation} {bytes : List UInt8}
    (h : annotationBytes a = .ok bytes) :
    ReadsAs (readTopLevel types defaultsFor) bytes
      (rereadBody types defaultsFor nestingLimit a) := by
  obtain ⟨body, rfl, read⟩ :=
    readsAs_readBody nestingLimit (fun p _ => readsAs_readValue p.2) h
  refine readsAs_readByte_bind ?_
  rw [if_pos rfl]
  exact read

/-- What a reader makes of the bytes of an annotation. -/
theorem readAll_readTopLevel {a : Annotation} {bytes : List UInt8}
    (h : annotationBytes a = .ok bytes) :
    readAll (readTopLevel types defaultsFor) bytes
      = rereadBody types defaultsFor nestingLimit a :=
  readAll_of_readsAs (readsAs_readTopLevel types defaultsFor h)

/-- The annotations of a member are reread one after the other, each with all levels left. -/
lemma readsAs_readAnnotations : ∀ {annotations : List Annotation} (found : List Annotation)
    {bytes : List UInt8}, concatBytes annotationBytes annotations = .ok bytes →
    ReadsAs (readAnnotations (readTopLevel types defaultsFor) annotations.length found) bytes
      (do return found.reverse ++ (← rereadAnnotations types defaultsFor nestingLimit annotations))
  | [], found, bytes, h => by
      cases Except.ok.inj h
      simpa [readAnnotations, rereadAnnotations] using ReadsAs.pure found.reverse
  | a :: annotations, found, bytes, h => by
      obtain ⟨front, back, first, others, rfl⟩ := concatBytes_cons_ok h
      have step := (readsAs_readTopLevel types defaultsFor first).bind fun b =>
        readsAs_readAnnotations (b :: found) others
      rw [List.length_cons, readAnnotations, rereadAnnotations]
      simpa using step

/-- What a reader makes of the bytes of an attribute of a member. -/
theorem readAll_readMember {annotations : List Annotation} {bytes : List UInt8}
    (h : memberBytes annotations = .ok bytes) :
    readAll (do readAnnotations (readTopLevel types defaultsFor) (← readLength) []) bytes
      = rereadAnnotations types defaultsFor nestingLimit annotations := by
  obtain ⟨count, items, hcount, hitems, rfl⟩ := memberBytes_ok h
  refine readAll_of_readsAs ((readsAs_readLength hcount).known_bind ?_)
  simpa using readsAs_readAnnotations types defaultsFor [] hitems

end DocAnnotations.Attribute
