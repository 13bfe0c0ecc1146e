import SlabTree.Proofs.Tree.Verification

/-!
# Fields of a node

The four fields of a header and the payload share one buffer.  A header that is decoded and written
back leaves the buffer as it was, and a header that is written reads back, unless one of its links
is the number that stands for "no slot".  A write of one field is seen in this field alone, so after
any writes each field is what was last written to it.  That number is never one of a slot: the
options of a tree bound the number of its slots, so every slot that a link could lead to has a
smaller one.
-/

namespace SlabTree

variable {bytes node later data : Bytes} {start offset : Nat}

/-! ## Parts of a buffer -/

/-- A byte of a buffer that was written over. -/
theorem Bytes.getElem?_of_overwrite? (written : bytes.overwrite? start data = some later)
    (i : Nat) :
    later[i]? = if start ≤ i ∧ i < start + data.length then data[i - start]? else bytes[i]? := by
  unfold overwrite? at written
  split at written
  next inside =>
    cases written
    have place : (bytes.take start).length = start := List.length_take_of_le (by omega)
    rw [List.append_assoc, List.getElem?_append, List.getElem?_append, place]
    split
    · rw [if_neg (by omega), List.getElem?_take_of_lt ‹_›]
    split
    · rw [if_pos (by omega)]
    · rw [if_neg (by omega), List.getElem?_drop]
      congr 1
      omega
  · contradiction

namespace Header

theorem getElem?_field (bytes : Bytes) (offset i : Nat) :
    (field bytes offset)[i]? = if i < fieldSize then bytes[offset + i]? else none := by
  rw [field, List.getElem?_take, List.getElem?_drop]

/-- A field keeps its bytes when what is written lies beside it. -/
theorem field_of_overwrite?_apart (written : bytes.overwrite? start data = some later)
    (apart : offset + fieldSize ≤ start ∨ start + data.length ≤ offset) :
    field later offset = field bytes offset := by
  apply List.ext_getElem?
  intro i
  rw [getElem?_field, getElem?_field, Bytes.getElem?_of_overwrite? written]
  split
  · rw [if_neg (by omega)]
  · rfl

/-- A field that is written over is what was written there. -/
theorem field_of_overwrite?_inside (written : bytes.overwrite? start data = some later)
    (low : start ≤ offset) (high : offset + fieldSize ≤ start + data.length) :
    field later offset = field data (offset - start) := by
  apply List.ext_getElem?
  intro i
  rw [getElem?_field, getElem?_field, Bytes.getElem?_of_overwrite? written]
  split
  · rw [if_pos (by omega)]
    congr 1
    omega
  · rfl

/-- A field that is written by itself is what was written. -/
theorem field_of_overwrite? (written : bytes.overwrite? offset data = some later)
    (four : data.length = fieldSize) : field later offset = data := by
  rw [field_of_overwrite?_inside written (Nat.le_refl _) (by omega), Nat.sub_self, field,
    List.drop_zero, ← four, List.take_length]

/-- A header is what its four fields make it. -/
theorem ofBytes_congr {first second : Bytes}
    (same : ∀ offset, offset + fieldSize ≤ size → field first offset = field second offset) :
    ofBytes first = ofBytes second := by
  apply eq_of_links
  · intro link
    rw [link_ofBytes, link_ofBytes, same link.offset (by cases link <;> decide)]
  · rw [height_ofBytes, height_ofBytes, same heightOffset (by decide)]

theorem length_field (long : offset + fieldSize ≤ bytes.length) :
    (field bytes offset).length = fieldSize := by
  rw [field, List.length_take, List.length_drop]
  omega

/-- Four bytes are the encoding of the link that they stand for. -/
theorem encodeLink_decodeLink (four : bytes.length = 4) :
    encodeLink (decodeLink bytes) = bytes := by
  rw [encodeLink, decodeLink, Slot.toWord_ofWord, LittleEndian.encode_decode four]

/-- Four bytes are the encoding of the height that they stand for. -/
theorem encodeHeight_decodeHeight (four : bytes.length = 4) :
    encodeHeight (decodeHeight bytes) = bytes := by
  have word : (decodeHeight bytes % 0x100000000).toNat = LittleEndian.decode bytes := by
    have bounded := LittleEndian.decode_lt four
    simp only [decodeHeight]
    split <;> omega
  rw [encodeHeight, word, LittleEndian.encode_decode four]

/-- What is read of a link that was written: the reserved number stands for no slot. -/
theorem decodeLink_encodeLink_word {target : Option Slot}
    (word : ∀ slot, target = some slot → slot < 0x100000000) :
    decodeLink (encodeLink target) = Slot.ofWord (Slot.toWord target) := by
  have fits : Slot.toWord target < 0x100000000 := by
    cases target with
    | none => decide
    | some slot => exact word slot rfl
  rw [decodeLink, encodeLink, LittleEndian.decode_encode fits]

/-- The leading bytes of a buffer are the encoding of the header that they stand for. -/
theorem encode_ofBytes (long : size ≤ bytes.length) : (ofBytes bytes).encode = bytes.take size := by
  have four : ∀ offset, offset + fieldSize ≤ size → (field bytes offset).length = 4 :=
    fun offset inside => length_field (Nat.le_trans inside long)
  have fields : bytes.take size = field bytes 0 ++ (field bytes 4 ++ (field bytes 8 ++
      field bytes 12)) := by
    rw [show size = 4 + (4 + (4 + 4)) from rfl]
    simp only [List.take_add, List.drop_drop, field, fieldSize, List.drop_zero]
  rw [fields, encode, List.append_assoc, List.append_assoc]
  simp only [ofBytes, Link.offset, heightOffset]
  rw [encodeLink_decodeLink (four 0 (by decide)), encodeLink_decodeLink (four 4 (by decide)),
    encodeLink_decodeLink (four 8 (by decide)), encodeHeight_decodeHeight (four 12 (by decide))]

end Header

namespace Node

/-- The payload of a node is what follows its header. -/
theorem payload?_eq_some (long : Header.size ≤ node.length) :
    payload? node = some (node.drop Header.size) := by
  rw [payload?, Bytes.range?, if_pos ⟨long, Nat.le_refl _⟩, List.take_of_length_le]
  rw [List.length_drop]

theorem decode?_eq_some (long : Header.size ≤ node.length) :
    Header.decode? node = some (Header.ofBytes node) :=
  if_pos long

/-- The payload keeps its bytes when a field of the header is written. -/
theorem drop_of_overwrite?_before (written : node.overwrite? start data = some later)
    (before : start + data.length ≤ Header.size) :
    later.drop Header.size = node.drop Header.size := by
  apply List.ext_getElem?
  intro i
  rw [List.getElem?_drop, List.getElem?_drop, Bytes.getElem?_of_overwrite? written,
    if_neg (by omega)]

/-! ## Whole headers -/

/-- The header that a node starts with, written back, leaves it as it was. -/
theorem setHeader?_ofBytes (long : Header.size ≤ node.length) :
    setHeader? node (Header.ofBytes node) = some node := by
  rw [setHeader?, Header.encode_ofBytes long, Bytes.overwrite?]
  have taken : (node.take Header.size).length = Header.size := List.length_take_of_le long
  rw [taken, if_pos (by omega), List.take_zero, List.nil_append, Nat.zero_add,
    List.take_append_drop]

/-- A header whose links are storable and whose height has 32 bits reads back from the node that it
is written to, and the payload is left alone. -/
theorem exists_setHeader? {header : Header} (long : Header.size ≤ node.length)
    (links : ∀ link, Slot.Storable (header.link link)) (lower : -0x80000000 ≤ header.height)
    (upper : header.height < 0x80000000) :
    ∃ later, setHeader? node header = some later ∧ later.length = node.length ∧
      Header.decode? later = some header ∧ payload? later = payload? node := by
  have room : 0 + header.encode.length ≤ node.length := by
    rw [Header.length_encode]
    omega
  have written : node.overwrite? 0 header.encode = some _ := if_pos room
  have length := Bytes.length_overwrite? written
  refine ⟨_, written, length, ?_, ?_⟩
  · have whole : Header.ofBytes _ = Header.ofBytes header.encode :=
      Header.ofBytes_congr fun offset inside =>
        Header.field_of_overwrite?_inside written (Nat.zero_le _) (by
          rwa [Header.length_encode, Nat.zero_add])
    rw [decode?_eq_some (by omega), whole, Header.ofBytes_encode links lower upper]
  · rw [payload?_eq_some (by omega), payload?_eq_some long,
      drop_of_overwrite?_before written (by rw [Header.length_encode]; decide)]

/-! ## One field after the other -/

/-- What a node contains: its header and its payload. -/
structure Contents where
  header : Header
  payload : Bytes
  deriving DecidableEq, Repr

/-- The contents of a buffer that is long enough to have a header. -/
def contents? (node : Bytes) : Option Contents := do
  let header ← Header.decode? node
  let payload ← payload? node
  some ⟨header, payload⟩

/-- A write of one field of the header, or of some bytes of the payload. -/
inductive Write
  | link (link : Link) (target : Option Slot)
  | height (height : Int)
  | payload (start : Nat) (data : Bytes)
  deriving DecidableEq, Repr

/-- The node after a write, if it has the bytes that are written. -/
def write? (node : Bytes) : Write → Option Bytes
  | .link link target => setLink? node link target
  | .height height => setHeight? node height
  | .payload start data => node.overwrite? (Header.size + start) data

/-- What is written has its place in a node of so many bytes: slot numbers are words, heights are
signed words, and the payload has the bytes that are written. -/
def Write.Fits (length : Nat) : Write → Prop
  | .link _ target => ∀ slot, target = some slot → slot < 0x100000000
  | .height level => -0x80000000 ≤ level ∧ level < 0x80000000
  | .payload start data => Header.size + start + data.length ≤ length

/-- The contents with one field replaced; a link to the reserved number is a link to no slot. -/
def Contents.write (contents : Contents) : Write → Contents
  | .link link target =>
      { contents with
        header := contents.header.withLink link (Slot.ofWord (Slot.toWord target)) }
  | .height height => { contents with header := contents.header.withHeight height }
  | .payload start data =>
      { contents with
        payload := contents.payload.take start ++ data ++
          contents.payload.drop (start + data.length) }

theorem contents?_eq_some (long : Header.size ≤ node.length) :
    contents? node = some ⟨Header.ofBytes node, node.drop Header.size⟩ := by
  rw [contents?, decode?_eq_some long, payload?_eq_some long]
  rfl

variable {write : Write}

theorem ofBytes_of_setLink? {link : Link} {target : Option Slot}
    (word : ∀ slot, target = some slot → slot < 0x100000000)
    (written : setLink? node link target = some later) :
    Header.ofBytes later =
      (Header.ofBytes node).withLink link (Slot.ofWord (Slot.toWord target)) := by
  apply Header.eq_of_links
  · intro other
    rw [Header.link_withLink, Header.link_ofBytes, Header.link_ofBytes]
    split
    next same =>
      rw [same, Header.field_of_overwrite? written rfl, Header.decodeLink_encodeLink_word word]
    next different =>
      rw [Header.field_of_overwrite?_apart written]
      rw [Header.length_encodeLink]
      cases other <;> cases link <;> simp_all [Link.offset, Header.fieldSize]
  · rw [Header.height_withLink, Header.height_ofBytes, Header.height_ofBytes,
      Header.field_of_overwrite?_apart written]
    right
    rw [Header.length_encodeLink]
    cases link <;> decide

theorem ofBytes_of_setHeight? {height : Int} (lower : -0x80000000 ≤ height)
    (upper : height < 0x80000000) (written : setHeight? node height = some later) :
    Header.ofBytes later = (Header.ofBytes node).withHeight height := by
  apply Header.eq_of_links
  · intro link
    rw [Header.link_withHeight, Header.link_ofBytes, Header.link_ofBytes,
      Header.field_of_overwrite?_apart written]
    left
    cases link <;> decide
  · rw [Header.height_ofBytes, Header.field_of_overwrite? written rfl,
      Header.decodeHeight_encodeHeight lower upper]
    rfl

/-- Bytes written into the payload leave the header alone. -/
theorem ofBytes_of_overwrite?_behind
    (written : node.overwrite? (Header.size + start) data = some later) :
    Header.ofBytes later = Header.ofBytes node :=
  Header.ofBytes_congr fun _ inside =>
    Header.field_of_overwrite?_apart written (Or.inl (Nat.le_trans inside (Nat.le_add_right _ _)))

theorem drop_of_overwrite?_behind
    (written : node.overwrite? (Header.size + start) data = some later) :
    later.drop Header.size = (node.drop Header.size).take start ++ data ++
      (node.drop Header.size).drop (start + data.length) := by
  unfold Bytes.overwrite? at written
  split at written
  next inside =>
    cases written
    have place : Header.size ≤ (node.take (Header.size + start)).length := by
      rw [List.length_take]
      omega
    rw [List.append_assoc, List.drop_append_of_le_length place, List.drop_take,
      Nat.add_sub_cancel_left, List.drop_drop, List.append_assoc, Nat.add_assoc]
  · contradiction

/-- A write that fits changes the contents of a node in its own field. -/
theorem exists_write? (long : Header.size ≤ node.length) (fits : write.Fits node.length) :
    ∃ later, write? node write = some later ∧ later.length = node.length ∧
      contents? later = (contents? node).map (·.write write) := by
  cases write with
  | link link target =>
      have room : link.offset + (Header.encodeLink target).length ≤ Header.size := by
        rw [Header.length_encodeLink]
        cases link <;> decide
      have written : setLink? node link target = some _ := if_pos (Nat.le_trans room long)
      have length := Bytes.length_overwrite? written
      refine ⟨_, written, length, ?_⟩
      rw [contents?_eq_some (by omega), contents?_eq_some long, ofBytes_of_setLink? fits written,
        drop_of_overwrite?_before written room]
      rfl
  | height level =>
      have room : Header.heightOffset + (Header.encodeHeight level).length ≤ Header.size := by
        rw [Header.length_encodeHeight]
        decide
      have written : setHeight? node level = some _ := if_pos (Nat.le_trans room long)
      have length := Bytes.length_overwrite? written
      refine ⟨_, written, length, ?_⟩
      rw [contents?_eq_some (by omega), contents?_eq_some long,
        ofBytes_of_setHeight? fits.1 fits.2 written, drop_of_overwrite?_before written room]
      rfl
  | payload start data =>
      have written : node.overwrite? (Header.size + start) data = some _ := if_pos fits
      have length := Bytes.length_overwrite? written
      refine ⟨_, written, length, ?_⟩
      rw [contents?_eq_some (by omega), contents?_eq_some long,
        ofBytes_of_overwrite?_behind written, drop_of_overwrite?_behind written]
      rfl

/-- Writes that fit change the contents of a node each in its own field, one after the other. -/
theorem exists_writes {writes : List Write} (long : Header.size ≤ node.length)
    (fits : ∀ write ∈ writes, write.Fits node.length) :
    ∃ later, writes.foldlM write? node = some later ∧ later.length = node.length ∧
      contents? later = (contents? node).map (writes.foldl Contents.write ·) := by
  induction writes generalizing node with
  | nil => exact ⟨node, rfl, rfl, by simp⟩
  | cons write rest inductionHypothesis =>
      obtain ⟨middle, written, sameLength, contents⟩ :=
        exists_write? long (fits write List.mem_cons_self)
      obtain ⟨later, ran, length, contentsAfter⟩ := @inductionHypothesis middle (by omega)
        fun other member => sameLength ▸ fits other (List.mem_cons_of_mem write member)
      refine ⟨later, ?_, length.trans sameLength, ?_⟩
      · rw [List.foldlM_cons, written]
        exact ran
      · rw [contentsAfter, contents, Option.map_map]
        rfl

end Node

/-! ## The number of no slot -/

variable {headers : Slot → Header} {parent target : Option Slot} {shape : Shape} {slot : Slot}

/-- Links of a linked shape lead to its slots, or up from its top. -/
theorem Linked.link_mem {link : Link} {other : Slot} (linked : Linked headers parent shape)
    (member : slot ∈ shape.slots) (leads : (headers slot).link link = some other) :
    other ∈ shape.slots ∨ parent = some other := by
  induction shape generalizing parent with
  | leaf => contradiction
  | node left top right onLeft onRight =>
      obtain ⟨up, toLeft, toRight, leftLinked, rightLinked⟩ := linked
      rw [Shape.mem_slots_node] at member ⊢
      rcases member with rfl | inLeft | inRight
      · cases link with
        | parent => exact Or.inr (up.symm.trans leads)
        | left =>
            exact Or.inl (Or.inr (Or.inl (Shape.mem_slots_of_root? (toLeft.symm.trans leads))))
        | right =>
            exact Or.inl (Or.inr (Or.inr (Shape.mem_slots_of_root? (toRight.symm.trans leads))))
      · rcases onLeft leftLinked inLeft with inside | above
        · exact Or.inl (Or.inr (Or.inl inside))
        · exact Or.inl (Or.inl (Option.some.inj above).symm)
      · rcases onRight rightLinked inRight with inside | above
        · exact Or.inl (Or.inr (Or.inr inside))
        · exact Or.inl (Or.inl (Option.some.inj above).symm)

namespace Tree

variable {tree : Tree}

/-- A call comes by the number of a slot in three ways: the slot is handed out, it is the next to be
freed, or a link leads there.  In none of them the number is that of no slot. -/
structure SparesNil (tree : Tree) : Prop where
  allocated : ∀ journal slot final,
    onArena Arena.allocate ⟨tree, journal⟩ = .ok (.ok slot) final → slot ≠ Slot.nil
  last : ∀ slot, tree.arena.last? = some slot → slot ≠ Slot.nil
  link : ∀ slot link target, tree.link slot link = .ok (some target) → target ≠ Slot.nil
  header : ∀ slot header, tree.header slot = .ok header →
    ∀ link target, header.link link = some target → target ≠ Slot.nil

/-- As many bytes are read as were asked for. -/
theorem length_of_read {arena : Arena} {stop : Nat}
    (answered : arena.read slot start stop = .ok bytes) : bytes.length = stop - start := by
  obtain ⟨_, _, read⟩ := exists_of_bind_eq_ok answered
  cases read
  exact Region.length_peek _ _ _

/-- What was read answers a question about it. -/
theorem exists_of_map_eq_ok {α : Type} {outcome : Except Fault Bytes} {f : Bytes → α} {answer : α}
    (answered : outcome.map f = .ok answer) : ∃ read, outcome = .ok read ∧ f read = answer := by
  cases outcome with
  | ok read => exact ⟨read, rfl, Except.ok.inj answered⟩
  | error fault => cases answered

/-- While the numbers of its arena fit together, a tree never comes by the number of no slot,
whatever stands in its slots. -/
theorem Usable.sparesNil (usable : Usable tree.arena.ledger tree.options) : SparesNil tree where
  allocated := by
    intro journal slot final ran
    rcases Nat.lt_or_eq_of_le usable.ledger.live_le with room | full
    · cases told : tree.graph.ledger.commitRefusal? with
      | some error =>
          obtain ⟨given, _⟩ :=
            final_of_yields (@Graph.yields_allocate_refused tree.graph usable room error told) rfl
              ran
          cases given
      | none =>
          obtain ⟨given, _⟩ :=
            final_of_yields (@Graph.yields_allocate tree.graph usable room told) rfl ran
          cases given
          have below : tree.arena.live < Slot.nil :=
            Nat.lt_trans (Nat.lt_of_lt_of_eq room usable.capacity_eq) usable.maxNodes_lt
          exact Nat.ne_of_lt below
    · obtain ⟨given, _⟩ := final_of_yields (@Graph.yields_allocate_full tree.graph full) rfl ran
      cases given
  last := by
    intro slot isLast
    unfold Arena.last? at isLast
    split at isLast
    · cases isLast
    next used =>
      cases isLast
      exact Nat.ne_of_lt (usable.lt_nil (Nat.sub_one_lt used))
  link := by
    intro slot link target answered
    obtain ⟨read, answered, leads⟩ := exists_of_map_eq_ok answered
    have four := length_of_read answered
    rw [Nat.add_sub_cancel_left] at four
    exact Nat.ne_of_lt (Header.storable_decodeLink four target leads)
  header := by
    intro slot header answered link target leads
    obtain ⟨read, told, rfl⟩ := exists_of_map_eq_ok answered
    rw [Header.link_ofBytes] at leads
    have size : read.length = Header.size := length_of_read told
    have four := @Header.length_field read link.offset (size ▸ View.link_offset_fits link)
    exact Nat.ne_of_lt (Header.storable_decodeLink four target leads)

/-- The bytes of a link in a live slot are the encoding of the link. -/
theorem read_link_eq_ok (usable : tree.graph.Usable) (live : slot < tree.arena.live) (link : Link) :
    tree.arena.read slot link.offset (link.offset + Header.fieldSize) =
      .ok (Header.encodeLink ((tree.graph.headers slot).link link)) := by
  have inside := Nat.le_trans (View.link_offset_fits link) usable.header_fits
  have read := @read_eq_ok tree.view slot tree usable live rfl _ _ (Nat.le_add_right _ _) inside
  rw [read]
  have four :
      (tree.view.arena.slice slot link.offset (link.offset + Header.fieldSize)).length = 4 := by
    rw [Arena.View.length_slice, Nat.add_sub_cancel_left]
    rfl
  have same : (tree.graph.headers slot).link link = _ := View.link_header link
  rw [same, Header.encodeLink_decodeLink four]

/-- The nodes of a reachable tree store its links, and none of these is a link to the number of no
slot. -/
theorem links_of_intact {tree : Tree} (usable : tree.graph.Usable)
    (intact : Intact tree tree.graph.headers shape) (live : slot < tree.arena.live) (link : Link) :
    tree.arena.read slot link.offset (link.offset + Header.fieldSize) =
        .ok (Header.encodeLink ((tree.graph.headers slot).link link)) ∧
      ∀ target, (tree.graph.headers slot).link link = some target →
        target < tree.arena.live ∧ target ≠ Slot.nil := by
  refine ⟨read_link_eq_ok usable live link, fun target leads => ?_⟩
  rcases intact.linked.link_mem ((intact.mem_iff slot).mpr live) leads with inside | above
  · have targetLive := (intact.mem_iff target).mp inside
    exact ⟨targetLive, Nat.ne_of_lt (usable.lt_nil targetLive)⟩
  · cases above

/-- Headers and payloads of nodes.  A header that is read from a node and written back leaves the
node as it was; a header whose links are storable and whose height has 32 bits reads back and leaves
the payload as it was; and after any writes of links, heights and parts of the payload, each field
is what these writes make of it one after the other, without regard to the other fields.  In the
nodes of a reachable tree every link is stored as the number of a live slot or, if it leads nowhere,
as the number of no slot.  The two are never confused: whatever stands in the slots, no call comes
by a slot with this number. -/
theorem fields_of_nodes :
    (∀ node : Bytes, Header.size ≤ node.length →
      ∃ header, Header.decode? node = some header ∧ Node.setHeader? node header = some node) ∧
    (∀ (node : Bytes) (header : Header), Header.size ≤ node.length →
      (∀ link, Slot.Storable (header.link link)) → -0x80000000 ≤ header.height →
      header.height < 0x80000000 →
      ∃ later, Node.setHeader? node header = some later ∧ later.length = node.length ∧
        Header.decode? later = some header ∧ Node.payload? later = Node.payload? node) ∧
    (∀ (node : Bytes) (writes : List Node.Write), Header.size ≤ node.length →
      (∀ write ∈ writes, write.Fits node.length) →
      ∃ later, writes.foldlM Node.write? node = some later ∧ later.length = node.length ∧
        Node.contents? later =
          (Node.contents? node).map (writes.foldl Node.Contents.write ·)) ∧
    (∀ tree, Reachable tree →
      Usable tree.arena.ledger tree.options ∧
      ∃ headers shape, Intact tree headers shape ∧
        ∀ slot < tree.arena.live, slot ≠ Slot.nil ∧ ∀ link,
          tree.arena.read slot link.offset (link.offset + Header.fieldSize) =
              .ok (Header.encodeLink ((headers slot).link link)) ∧
            ∀ target, (headers slot).link link = some target →
              target < tree.arena.live ∧ target ≠ Slot.nil) ∧
    ∀ tree, Usable tree.arena.ledger tree.options → SparesNil tree := by
  refine ⟨fun node long => ⟨_, Node.decode?_eq_some long, Node.setHeader?_ofBytes long⟩,
    fun node header long links lower upper => Node.exists_setHeader? long links lower upper,
    fun node writes long fits => Node.exists_writes long fits, ?_,
    fun tree usable => usable.sparesNil⟩
  intro tree reachable
  obtain ⟨shape, sound⟩ := reachable.sound
  exact ⟨sound.usable, _, shape, sound.intact, fun slot live =>
    ⟨Nat.ne_of_lt (sound.usable.lt_nil live), fun link =>
      links_of_intact sound.usable sound.intact live link⟩⟩

/-- A node of zeros is decoded and written back, gets a header, and then four fields, one of them
a left link to the number of no slot; and a tree with one record. -/
theorem fields_of_nodes_mixed :
    ∃ back whole later made grown,
      Header.decode? (List.replicate 18 0) = some back ∧
        Node.setHeader? (List.replicate 18 0) back = some (List.replicate 18 0) ∧
        Node.setHeader? (List.replicate 18 0) ⟨none, some 3, some 0, -2⟩ = some whole ∧
        Header.decode? whole = some ⟨none, some 3, some 0, -2⟩ ∧
        Node.payload? whole = some [0, 0] ∧
        [.link .right (some 4), .payload 1 [9], .height (-1), .link .left (some Slot.nil)].foldlM
          Node.write? whole = some later ∧
        Node.contents? later = some ⟨⟨none, none, some 4, -1⟩, [0, 9]⟩ ∧
        Tree.create { maxNodes := 4, nodeSize := 2, keySize := 1 } Host.plain = .ok made ∧
        Tree.insert (.leading 1) [7, 1] ⟨made.state, {}⟩ = .ok (.ok ()) grown ∧
        SparesNil grown.state ∧ ∃ headers shape, Intact grown.state headers shape := by
  have run : ∃ made grown,
      Tree.create { maxNodes := 4, nodeSize := 2, keySize := 1 } Host.plain = .ok made ∧
        Tree.insert (.leading 1) [7, 1] ⟨made.state, {}⟩ = .ok (.ok ()) grown :=
    ⟨_, _, rfl, rfl⟩
  obtain ⟨made, grown, created, inserted⟩ := run
  obtain ⟨writesBack, reads, changes, links, spares⟩ := fields_of_nodes
  obtain ⟨back, decoded, restored⟩ := writesBack (List.replicate 18 0) (by decide)
  obtain ⟨whole, written, length, read, payload⟩ := reads (List.replicate 18 0)
    ⟨none, some 3, some 0, -2⟩ (by decide)
    (fun link => by cases link <;> simp [Slot.Storable, Header.link, Slot.nil]) (by decide)
    (by decide)
  obtain ⟨later, changed, _, contents⟩ := changes whole
    [.link .right (some 4), .payload 1 [9], .height (-1), .link .left (some Slot.nil)]
    (by rw [length]; decide) (by simp [Node.Write.Fits, length, Slot.nil, Header.size])
  obtain ⟨usable, headers, shape, intact, _⟩ :=
    links grown.state (.insert (.create created) inserted)
  have seen : Node.contents? whole = some ⟨⟨none, some 3, some 0, -2⟩, [0, 0]⟩ := by
    rw [Node.contents?, read, payload]
    rfl
  rw [seen] at contents
  exact ⟨back, whole, later, made, grown, decoded, restored, written, read, payload, changed,
    contents, created, inserted, spares _ usable, headers, shape, intact⟩

end Tree

end SlabTree
