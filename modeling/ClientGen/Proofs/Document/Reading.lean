import ClientGen.Document.Origin
import ClientGen.Proofs.Document.Keyed

/-! Documents that are read hold no key twice: the entries of a map are put in one by one, and a key
that is there takes the later value. -/

namespace ClientGen

/-- An inserted entry brings in at most its own key and its own value. -/
theorem Entries.mem_insert {es : Entries} {key : Scalar} {value : Node} {e : Scalar × Node}
    (h : e ∈ es.insert key value) :
    (e.1 = key ∨ ∃ f ∈ es, f.1 = e.1) ∧ (e.2 = value ∨ e ∈ es) := by
  induction es with
  | nil =>
    obtain rfl := List.mem_singleton.mp h
    exact ⟨.inl rfl, .inl rfl⟩
  | cons first rest ih =>
    obtain ⟨k, v⟩ := first
    have hlater (h : e ∈ rest) :
        (e.1 = key ∨ ∃ f ∈ (k, v) :: rest, f.1 = e.1) ∧ (e.2 = value ∨ e ∈ (k, v) :: rest) :=
      ⟨.inr ⟨e, List.mem_cons_of_mem _ h, rfl⟩, .inr (List.mem_cons_of_mem _ h)⟩
    unfold insert at h
    split_ifs at h with hsame
    · rcases List.mem_cons.mp h with rfl | h
      · exact ⟨.inr ⟨(k, v), List.mem_cons_self, rfl⟩, .inl rfl⟩
      · exact hlater h
    · rcases List.mem_cons.mp h with rfl | h
      · exact ⟨.inr ⟨(k, v), List.mem_cons_self, rfl⟩, .inr List.mem_cons_self⟩
      · obtain ⟨hkey, hvalue⟩ := ih h
        refine ⟨hkey.imp_right ?_, hvalue.imp_right (List.mem_cons_of_mem _)⟩
        rintro ⟨f, hf, heq⟩
        exact ⟨f, List.mem_cons_of_mem _ hf, heq⟩

theorem Entries.Distinct.insert {es : Entries} (h : es.Distinct) (key : Scalar) (value : Node) :
    (es.insert key value).Distinct := by
  induction es with
  | nil => exact List.pairwise_singleton _ _
  | cons first rest ih =>
    obtain ⟨k, v⟩ := first
    obtain ⟨hfirst, hrest⟩ := List.pairwise_cons.mp h
    unfold Entries.insert
    split_ifs with hsame
    · exact List.pairwise_cons.mpr ⟨hfirst, hrest⟩
    · refine List.pairwise_cons.mpr ⟨fun e he => ?_, ih hrest⟩
      rcases (Entries.mem_insert he).1 with heq | ⟨f, hf, heq⟩
      · simpa [heq] using hsame
      · simpa [heq] using hfirst f hf

theorem Node.Keyed.insert {es : Entries} {value : Node} (h : (Node.map es).Keyed)
    (hv : value.Keyed) (key : Scalar) : (Node.map (es.insert key value)).Keyed := by
  refine .map (h.distinct.insert key value) fun e he => ?_
  rcases (Entries.mem_insert he).2 with heq | he
  · exact heq ▸ hv
  · exact h.value he

theorem Node.keyed_empty : (Node.map []).Keyed := .map .nil (by simp)

namespace Json

theorem keyed_readNumber {c rest : Cursor} {node : Node} (h : readNumber c = .ok (node, rest)) :
    node.Keyed := by
  unfold readNumber at h
  extract_lets negative start whole at h
  split at h
  · cases h
  · split at h
    · split at h
      · obtain ⟨rfl, -⟩ := Prod.mk.inj (Except.ok.inj h)
        exact .scalar _
      · cases h
    · split at h
      · obtain ⟨rfl, -⟩ := Prod.mk.inj (Except.ok.inj h)
        exact .scalar _
      · cases h

theorem keyed_readAtom {c rest : Cursor} {node : Node} (h : readAtom c = .ok (node, rest)) :
    node.Keyed := by
  unfold readAtom at h
  split at h
  · next word value hfind =>
    have hwords : ∀ entry ∈ words, ∃ s, entry.2 = .scalar s := by simp [words]
    obtain ⟨s, hs⟩ := hwords _ (List.mem_of_find?_eq_some hfind)
    obtain ⟨rfl, -⟩ := Prod.mk.inj (Except.ok.inj h)
    change value = .scalar s at hs
    exact hs ▸ .scalar s
  · exact keyed_readNumber h

/-- The induction is on the fuel, over the three readers at once. -/
theorem keyed_readers (fuel : Nat) :
    (∀ c rest node, readValue fuel c = .ok (node, rest) → node.Keyed) ∧
    (∀ done c rest node, (∀ item ∈ done, Node.Keyed item) →
      readItems fuel done c = .ok (node, rest) → node.Keyed) ∧
    ∀ done c rest node, (Node.map done).Keyed →
      readMembers fuel done c = .ok (node, rest) → node.Keyed := by
  induction fuel with
  | zero =>
    refine ⟨fun _ _ _ h => ?_, fun _ _ _ _ _ h => ?_, fun _ _ _ _ _ h => ?_⟩
    · rw [readValue] at h
      cases h
    · rw [readItems] at h
      cases h
    · rw [readMembers] at h
      cases h
  | succ fuel ih =>
    obtain ⟨hvalue, hitems, hmembers⟩ := ih
    refine ⟨fun c rest node h => ?_, fun done c rest node hdone h => ?_,
      fun done c rest node hdone h => ?_⟩
    · rw [readValue] at h
      split at h
      · obtain ⟨⟨s, d⟩, -, h⟩ := bind_eq_ok.mp h
        obtain ⟨rfl, -⟩ := Prod.mk.inj (Except.ok.inj h)
        exact .scalar _
      · dsimp only at h
        split at h
        · obtain ⟨rfl, -⟩ := Prod.mk.inj (Except.ok.inj h)
          exact .list (by simp)
        · exact hitems _ _ _ _ (by simp) h
      · dsimp only at h
        split at h
        · obtain ⟨rfl, -⟩ := Prod.mk.inj (Except.ok.inj h)
          exact Node.keyed_empty
        · exact hmembers _ _ _ _ Node.keyed_empty h
      · exact keyed_readAtom h
    · rw [readItems] at h
      obtain ⟨⟨item, d⟩, hitem, h⟩ := bind_eq_ok.mp h
      have hall : ∀ i ∈ item :: done, Node.Keyed i :=
        List.forall_mem_cons.mpr ⟨hvalue _ _ _ hitem, hdone⟩
      dsimp only at h
      split at h
      · obtain ⟨rfl, -⟩ := Prod.mk.inj (Except.ok.inj h)
        exact .list fun i hi => hall i (List.mem_reverse.mp hi)
      · exact hitems _ _ _ _ hall h
      · cases h
    · rw [readMembers] at h
      split at h
      · obtain ⟨⟨key, d⟩, -, h⟩ := bind_eq_ok.mp h
        dsimp only at h
        split at h
        · obtain ⟨⟨value, e⟩, hread, h⟩ := bind_eq_ok.mp h
          have hinserted := hdone.insert (hvalue _ _ _ hread) (.str key)
          dsimp only at h
          split at h
          · obtain ⟨rfl, -⟩ := Prod.mk.inj (Except.ok.inj h)
            exact hinserted
          · exact hmembers _ _ _ _ hinserted h
          · cases h
        · cases h
      · cases h

theorem keyed_of_read {text : List Char} {node : Node} (h : read text = .ok node) :
    node.Keyed := by
  unfold read at h
  split at h
  · cases h
  · obtain ⟨⟨value, c⟩, hvalue, h⟩ := bind_eq_ok.mp h
    dsimp only at h
    split at h
    · exact Except.ok.inj h ▸ (keyed_readers _).1 _ _ _ hvalue
    · cases h

end Json

namespace Yaml.Tree

section Parts

variable {fuel : Nat} (ih : ∀ tree node, toNode fuel tree = .ok node → node.Keyed)
include ih

theorem keyed_toNodes {trees : List Tree} {nodes : List Node}
    (h : toNodes fuel trees = .ok nodes) : ∀ node ∈ nodes, node.Keyed := by
  induction trees generalizing nodes with
  | nil =>
    rw [toNodes] at h
    obtain rfl := Except.ok.inj h
    simp
  | cons tree rest ihr =>
    rw [toNodes] at h
    obtain ⟨head, hhead, h⟩ := bind_eq_ok.mp h
    obtain ⟨tail, htail, h⟩ := bind_eq_ok.mp h
    obtain rfl := pure_eq_ok.mp h
    exact List.forall_mem_cons.mpr ⟨ih _ _ hhead, ihr htail⟩

theorem keyed_toEntries {pairs : List (Tree × Tree)} {done es : Entries}
    (hdone : (Node.map done).Keyed) (h : toEntries fuel done pairs = .ok es) :
    (Node.map es).Keyed := by
  induction pairs generalizing done with
  | nil =>
    rw [toEntries] at h
    exact Except.ok.inj h ▸ hdone
  | cons pair rest ihr =>
    obtain ⟨key, value⟩ := pair
    rw [toEntries] at h
    obtain ⟨k, -, h⟩ := bind_eq_ok.mp h
    obtain ⟨v, hv, h⟩ := bind_eq_ok.mp h
    exact ihr (hdone.insert (ih _ _ hv) k) h

/-- The pairs of a sequence of maps with one entry each. -/
theorem keyed_toPairs {items : List Tree} {node : Node} (h : (do
    let lists ← items.mapM fun item =>
      match item.pairs? with
      | some [(key, value)] => do
        return Node.list [← toNode fuel key, ← toNode fuel value]
      | _ => throw Flaw.tag
    return Node.list lists) = Except.ok node) : node.Keyed := by
  obtain ⟨lists, hlists, h⟩ := bind_eq_ok.mp h
  obtain rfl := pure_eq_ok.mp h
  refine .list fun list hlist => ?_
  obtain ⟨item, -, hitem⟩ := (exists_mem_of_forall₂ (mapM_eq_ok.mp hlists)).2 list hlist
  split at hitem
  · obtain ⟨key, hkey, hitem⟩ := bind_eq_ok.mp hitem
    obtain ⟨value, hvalue, hitem⟩ := bind_eq_ok.mp hitem
    obtain rfl := pure_eq_ok.mp hitem
    exact .list (by simpa using ⟨ih _ _ hkey, ih _ _ hvalue⟩)
  · cases hitem

end Parts

theorem keyed_map_scalar {x : Except Flaw Scalar} {node : Node} (h : x.map .scalar = .ok node) :
    node.Keyed := by
  cases x with
  | error e => cases h
  | ok s => exact Except.ok.inj h ▸ .scalar s

theorem keyed_valueText {pairs : List (Tree × Tree)} {tag : Tag} {node : Node}
    (h : (match valueText? pairs with
      | some text => (Construct.scalar tag text).map Node.scalar
      | none => .error .tag) = Except.ok node) : node.Keyed := by
  split at h
  · exact keyed_map_scalar h
  · cases h

theorem keyed_toNode (fuel : Nat) (tree : Tree) (node : Node) (h : toNode fuel tree = .ok node) :
    node.Keyed := by
  induction fuel generalizing tree node with
  | zero =>
    rw [toNode.eq_def] at h
    cases h
  | succ fuel ih =>
    rw [toNode.eq_def] at h
    dsimp only at h
    split at h
    · exact keyed_map_scalar h
    · split at h
      · cases hnodes : toNodes fuel _ with
        | error e =>
          rw [hnodes] at h
          cases h
        | ok nodes =>
          rw [hnodes] at h
          exact Except.ok.inj h ▸ .list (keyed_toNodes ih hnodes)
      · exact keyed_toPairs ih h
      · exact keyed_toPairs ih h
      · cases h
    · split at h
      · obtain ⟨pairs, -, h⟩ := bind_eq_ok.mp h
        obtain ⟨es, hes, h⟩ := bind_eq_ok.mp h
        exact pure_eq_ok.mp h ▸ keyed_toEntries ih Node.keyed_empty hes
      all_goals first | exact keyed_valueText h | cases h

end Yaml.Tree

theorem Yaml.keyed_of_read {text : List Char} {node : Node} (h : Yaml.read text = .ok node) :
    node.Keyed := by
  unfold Yaml.read at h
  obtain ⟨tokens, -, h⟩ := bind_eq_ok.mp h
  obtain ⟨tree, -, h⟩ := bind_eq_ok.mp h
  split at h
  · exact pure_eq_ok.mp h ▸ .scalar _
  · exact Tree.keyed_toNode _ _ _ h

namespace Document

theorem keyed_of_requireMap {origin : String} {node value : Node} (h : node.Keyed)
    (hv : requireMap origin node = .ok value) : value.Keyed := by
  unfold requireMap at hv
  split at hv
  · exact Except.ok.inj hv ▸ h
  · cases hv
  · cases hv

theorem keyed_of_readYaml {text : List Char} {failed : Yaml.Flaw → LoadError} {node : Node}
    (h : readYaml text failed = .ok node) : node.Keyed := by
  unfold readYaml at h
  split at h
  · next hread => exact Except.ok.inj h ▸ Yaml.keyed_of_read hread
  · cases h
  · cases h

theorem keyed_of_readJson {text : List Char} {failed : String → Except LoadError Node} {node : Node}
    (hfailed : ∀ message other, failed message = .ok other → other.Keyed)
    (h : readJson text failed = .ok node) : node.Keyed := by
  unfold readJson at h
  split at h
  · next hread => exact Except.ok.inj h ▸ Json.keyed_of_read hread
  · split at h
    · exact hfailed _ _ h
    · cases h

/-- A document that is read, in either notation, holds no key twice. -/
theorem keyed_of_read {text : List Char} {syntaxOf : Option Notation} {origin : String}
    {node : Node} (h : read text syntaxOf origin = .ok node) : node.Keyed := by
  obtain ⟨value, hvalue, h⟩ := bind_eq_ok.mp h
  refine keyed_of_requireMap ?_ h
  unfold decode at hvalue
  split at hvalue
  · exact keyed_of_readYaml hvalue
  · refine keyed_of_readJson (fun _ _ hother => ?_) hvalue
    cases hother
  · exact keyed_of_readJson (fun _ _ hother => keyed_of_readYaml hother) hvalue

end Document

end ClientGen
