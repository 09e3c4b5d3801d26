import CounterCoordinator.Json.Forms
import CounterCoordinator.Proofs.Json.Legible
import CounterCoordinator.Proofs.Node.Text
import CounterCoordinator.Proofs.Topology.Election

/-!
# Snapshots from elsewhere

A snapshot that is built is canonical. One that is read from JSON lists its nodes as the text does:
what was written of a snapshot is read back as it was, so canonical snapshots stay canonical when
they are passed on, but a text that lists nodes out of order makes a snapshot that is not canonical,
and may elect another coordinator than the nodes it lists call for.
-/
namespace CounterCoordinator

open Json

namespace NodeId

theorem plain_text (id : NodeId) : ∀ c ∈ id.text.toList, Plain c := by
  have hdigits : ∀ m < 16, Plain (Text.hexDigit m) := by decide
  intro c hc
  rw [text, String.toList_ofList] at hc
  rcases mem_hyphenate hc with rfl | hc
  · decide
  · obtain ⟨m, hm, rfl⟩ := Text.mem_hexText hc
    exact hdigits m hm

theorem ofJson?_toJson (id : NodeId) : ofJson? id.toJson = some id := by
  simp only [ofJson?, toJson, ofString, string?, Option.bind_some, ofText?_text]

end NodeId

namespace ClusterNode

theorem legible_toJson (n : ClusterNode) : Legible n.toJson := by
  have hnames : ∀ name ∈ ["id", "order", "client"], ∀ c ∈ name.toList, Plain c := by
    simp [Plain]
  apply legible_ofMembers
  intro m hm
  simp only [List.mem_cons, List.not_mem_nil, or_false] at hm
  rcases hm with rfl | rfl | rfl
  · exact ⟨hnames _ (by simp), legible_ofString n.id.plain_text⟩
  · exact ⟨hnames _ (by simp), legible_ofNat _⟩
  · exact ⟨hnames _ (by simp), legible_bool _⟩

theorem ofJson?_toJson (n : ClusterNode) : ofJson? n.toJson = some n := by
  have hfields : fields? ["id", "order", "client"] n.toJson =
      some [some n.id.toJson, some (ofNat n.order.toNat), some (.bool n.client)] :=
    fields?_ofMembers (show ["id", "order", "client"].Nodup by decide)
  simp [ofJson?, hfields, required, NodeId.ofJson?_toJson, word?_ofNat, bool?]

end ClusterNode

namespace Snapshot
variable {s t : Snapshot} {v : Json}

theorem legible_toJson (s : Snapshot) : Legible s.toJson := by
  have hnames : ∀ name ∈ ["version", "nodes"], ∀ c ∈ name.toList, Plain c := by
    simp [Plain]
  apply legible_ofMembers
  intro m hm
  simp only [List.mem_cons, List.not_mem_nil, or_false] at hm
  rcases hm with rfl | rfl
  · exact ⟨hnames _ (by simp), legible_ofNat _⟩
  · refine ⟨hnames _ (by simp), legible_array ?_⟩
    intro v hv
    obtain ⟨n, -, rfl⟩ := List.mem_map.mp hv
    exact n.legible_toJson

theorem ofJson?_toJson (s : Snapshot) : ofJson? s.toJson = some s := by
  have hfields : fields? ["version", "nodes"] s.toJson =
      some [some (ofNat s.version.toNat), some (.array (s.nodes.map ClusterNode.toJson))] :=
    fields?_ofMembers (show ["version", "nodes"].Nodup by decide)
  have hnodes : (s.nodes.map ClusterNode.toJson).mapM ClusterNode.ofJson? = some s.nodes := by
    rw [mapM_eq_some_iff, List.forall₂_map_left_iff, List.forall₂_same]
    exact fun n _ => n.ofJson?_toJson
  simp [ofJson?, hfields, required, word?_ofNat, list?, hnodes]

/-- The nodes that a value lists, in its order. -/
def listed? (v : Json) : Option (List Json) :=
  match fields? ["version", "nodes"] v with
  | some [_, some (.array items)] => some items
  | _ => none

/-- A snapshot has the nodes that its JSON form lists, one for one. -/
theorem listed?_of_ofJson? (h : ofJson? v = some s) :
    ∃ items, listed? v = some items ∧
      List.Forall₂ (fun item n => ClusterNode.ofJson? item = some n) items s.nodes := by
  unfold ofJson? at h
  obtain ⟨found, hfound, h⟩ := Option.bind_eq_some_iff.mp h
  split at h
  · rename_i version nodes
    obtain ⟨w, -, h⟩ := Option.bind_eq_some_iff.mp h
    obtain ⟨ns, hnodes, h⟩ := Option.bind_eq_some_iff.mp h
    cases h
    obtain ⟨value, rfl, hlist⟩ := Option.bind_eq_some_iff.mp hnodes
    cases value with
    | array items =>
      refine ⟨items, ?_, mapM_eq_some_iff.mp hlist⟩
      rw [listed?, hfound]
    | _ => cases hlist
  · cases h

/-- Where snapshots come from: they are built of nodes, start out empty, or are read from a text. -/
inductive Source where
  | built (version : UInt64) (nodes : List ClusterNode)
  | empty
  | text (written : String)

def Source.snapshot? : Source → Option Snapshot
  | built version nodes => some (ofNodes version nodes)
  | empty => some {}
  | text written => (read? written).bind ofJson?

/-- A text is in order when it lists no node behind one that joined later. -/
def Source.InOrder : Source → Prop
  | built _ _ | empty => True
  | text written => ∀ v items, read? written = some v → listed? v = some items →
      items.Pairwise fun a b => ∀ m n,
        ClusterNode.ofJson? a = some m → ClusterNode.ofJson? b = some n → m.order ≤ n.order

/-- What stands in order once it is decoded stood in order before. -/
theorem pairwise_decoded {α β : Type} {f : α → Option β} {r : β → β → Prop} {as : List α}
    {bs : List β} (h : List.Forall₂ (fun a b => f a = some b) as bs) :
    bs.Pairwise r ↔
      as.Pairwise fun a a' => ∀ b b', f a = some b → f a' = some b' → r b b' := by
  -- Decoding keeps positions, so the pairs of one list are the pairs of the other.
  have hlength := h.length_eq
  have hdecoded : ∀ i (hi : i < as.length) (hi' : i < bs.length), f as[i] = some bs[i] :=
    fun i hi hi' => h.get hi hi'
  rw [List.pairwise_iff_getElem, List.pairwise_iff_getElem]
  constructor
  · intro hpairs i j hi hj hij b b' hb hb'
    rw [hdecoded i hi (hlength ▸ hi)] at hb
    rw [hdecoded j hj (hlength ▸ hj)] at hb'
    cases hb
    cases hb'
    exact hpairs i j (hlength ▸ hi) (hlength ▸ hj) hij
  · intro hpairs i j hi hj hij
    exact hpairs i j (hlength ▸ hi) (hlength ▸ hj) hij _ _ (hdecoded i _ hi) (hdecoded j _ hj)

/-- Building puts nodes in order, and reading leaves them in the order of the text. -/
theorem Source.canonical_iff {source : Source} (h : source.snapshot? = some s) :
    s.Canonical ↔ source.InOrder := by
  cases source with
  | built version nodes =>
    cases h
    exact iff_of_true (canonical_ofNodes version nodes) trivial
  | empty =>
    cases h
    exact iff_of_true .nil trivial
  | text written =>
    obtain ⟨v, hv, hs⟩ := Option.bind_eq_some_iff.mp h
    obtain ⟨items, hitems, hdecoded⟩ := listed?_of_ofJson? hs
    refine (pairwise_decoded hdecoded).trans ?_
    constructor
    · intro hpairs v' items' hv' hitems'
      cases hv.symm.trans hv'
      cases hitems.symm.trans hitems'
      exact hpairs
    · exact fun horder => horder v items hv hitems

/-- What is written of a snapshot is read back as that snapshot. -/
theorem Source.snapshot?_written (s : Snapshot) :
    (Source.text s.toJson.compact).snapshot? = some s := by
  rw [snapshot?, s.legible_toJson.read?_compact, Option.bind_some, ofJson?_toJson]

/-- A snapshot is canonical if it was built, and if it was read from a text just when that lists its
nodes in order. Then its coordinator is a server that none joined before, and whoever came by the
same version and nodes in such a way elects the same one. Passing it on as a text changes nothing,
so what is canonical stays so, and what is not stays so too. -/
theorem canonical_order_by_source {source : Source} (h : source.snapshot? = some s) :
    (s.Canonical ↔ source.InOrder) ∧
    (source.InOrder → ∀ c, s.coordinator? = some c →
      c ∈ s.nodes ∧ c.client = false ∧ ∀ n ∈ s.nodes, n.client = false → c.order ≤ n.order) ∧
    (source.InOrder → ∀ (source' : Source) (t : Snapshot), source'.snapshot? = some t →
      source'.InOrder → s.version = t.version → (∀ n, n ∈ s.nodes ↔ n ∈ t.nodes) →
      (s.nodes.map ClusterNode.order).Nodup → (t.nodes.map ClusterNode.order).Nodup →
        s = t ∧ s.coordinator? = t.coordinator?) ∧
    (Source.text s.toJson.compact).snapshot? = some s ∧
    ((Source.text s.toJson.compact).InOrder ↔ s.Canonical) := by
  have hcanonical := Source.canonical_iff h
  have hpassed := Source.snapshot?_written s
  refine ⟨hcanonical, ?_, ?_, hpassed, (Source.canonical_iff hpassed).symm⟩
  · intro horder c hc
    obtain ⟨hmem, hserver⟩ := mem_of_coordinator? hc
    exact ⟨hmem, hserver, (hcanonical.mpr horder).coordinator?_first hc⟩
  · intro horder source' t ht horder' hversion hnodes hs' ht'
    have hperm : s.nodes.Perm t.nodes :=
      (List.perm_ext_iff_of_nodup (List.Nodup.of_map _ hs') (List.Nodup.of_map _ ht')).mpr hnodes
    have hsame : s = t := (hcanonical.mpr horder).eq_of_perm
      ((Source.canonical_iff ht).mpr horder') hversion hperm hs'
    exact ⟨hsame, congrArg coordinator? hsame⟩

/-- Two servers are handed over late one first, and the snapshot built of them is passed on. -/
theorem canonical_order_by_source_built :
    let s := ofNodes 1 [⟨.ofNat 2, 2, false⟩, ⟨.ofNat 1, 1, false⟩]
    (Source.built 1 [⟨.ofNat 2, 2, false⟩, ⟨.ofNat 1, 1, false⟩]).snapshot? = some s ∧
      s.Canonical ∧
      (Source.text s.toJson.compact).snapshot? = some s ∧
      (Source.text s.toJson.compact).InOrder := by
  intro s
  have hbuilt : (Source.built 1 [⟨.ofNat 2, 2, false⟩, ⟨.ofNat 1, 1, false⟩]).snapshot? = some s :=
    rfl
  obtain ⟨hcanonical, -, -, hpassed, horder⟩ := canonical_order_by_source hbuilt
  exact ⟨hbuilt, hcanonical.mpr trivial, hpassed, horder.mpr (hcanonical.mpr trivial)⟩

/-- Two servers, the later one listed first. -/
def latecomerFirst : String :=
  "\x7b\"version\":1,\"nodes\":[" ++
    "\x7b\"id\":\"00000000-0000-0000-0000-000000000002\",\"order\":2,\"client\":false\x7d," ++
    "\x7b\"id\":\"00000000-0000-0000-0000-000000000001\",\"order\":1,\"client\":false\x7d" ++
    "]\x7d"

/-- The snapshot that is read of them elects the later one, while the one that is built of them
elects the earlier one. -/
theorem canonical_order_lost_latecomerFirst :
    (¬ ∀ (source : Source) (s : Snapshot), source.snapshot? = some s → s.Canonical) ∧
    ∃ s, (Source.text latecomerFirst).snapshot? = some s ∧
      ¬ s.Canonical ∧
      s.coordinator? = some ⟨.ofNat 2, 2, false⟩ ∧
      (ofNodes s.version s.nodes).coordinator? = some ⟨.ofNat 1, 1, false⟩ := by
  let s : Snapshot := ⟨1, [⟨.ofNat 2, 2, false⟩, ⟨.ofNat 1, 1, false⟩]⟩
  have hread : (Source.text latecomerFirst).snapshot? = some s := by decide +kernel
  have hdisordered : ¬ s.Canonical := by decide
  have hbuilt : (ofNodes s.version s.nodes).coordinator? = some ⟨.ofNat 1, 1, false⟩ :=
    (coordinator?_ofNodes_eq_some_iff (by decide)).mpr (by decide)
  exact ⟨fun hall => hdisordered (hall _ s hread), s, hread, hdisordered, by decide, hbuilt⟩

end Snapshot
end CounterCoordinator
