import Switchboard.Proofs.Apart
import Switchboard.Proofs.ObservedPublication

/-!
# What the text of a hub shows

A volatile hub renders its leaves as they are, another hub gives the text that it published last.
So what a hub shows changes when it is posted, and if it is volatile when one of its leaves
changes. Two texts that show different numbers of open connections are different.

* `text_post`: after it is posted a hub shows the line that it published.
* `text_of_same`: as long as what it renders stays the same, a hub shows the same.
* `Reads.unique`: a text shows one number of open connections.
-/

namespace Switchboard

/-- The count of a counter. No other leaf has one. -/
def Leaf.count (l : Leaf) : Int :=
  match l.body with
  | .counter n => n
  | _ => 0

theorem Leaf.count_writeAll (l : Leaf) (vs : List Literal) (time : Timestamp) :
    (l.writeAll vs time).count = l.count := by
  unfold Leaf.count Leaf.writeAll
  cases hl : l.body with
  | counter n => rw [hl]
  | _ => rfl

theorem Hub.wrap_congr {x y : Hub} (hn : y.name = x.name) : y.wrap = x.wrap := by
  funext text
  unfold Hub.wrap Hub.idJson Hub.id
  rw [hn]

theorem Hub.wrap_injective (x : Hub) {s t : String} (he : x.wrap s = x.wrap t) : s = t := by
  unfold Hub.wrap at he
  have hl := congrArg String.toList he
  simp only [String.toList_append, List.append_assoc] at hl
  have ht := List.append_cancel_left (List.append_cancel_left (List.append_cancel_left hl))
  exact String.toList_inj.1 (List.append_cancel_right ht)

namespace Board

variable {b b' b'' : Board} {h : HubId}

/-! ### What stays between registrations -/

/-- What a board keeps as long as no hub and no leaf is registered. -/
structure Outline (b b' : Board) : Prop where
  connections : b'.registry.connections = b.registry.connections
  leaf : ∀ l, Leaf.Alike (b.leaf l) (b'.leaf l)
  owner : ∀ l, (b'.leaf l).owner = (b.leaf l).owner
  hub : ∀ h, Hub.Alike (b.hub h) (b'.hub h)

protected theorem Outline.refl (b : Board) : Outline b b :=
  ⟨rfl, fun _ => .refl _, fun _ => rfl, fun _ => .refl _⟩

theorem Outline.trans (o : Outline b b') (o' : Outline b' b'') : Outline b b'' where
  connections := o'.connections.trans o.connections
  leaf l := (o.leaf l).trans (o'.leaf l)
  owner l := (o'.owner l).trans (o.owner l)
  hub h := (o.hub h).trans (o'.hub h)

theorem Frame.outline (f : Frame b b') : Outline b b' where
  connections := by rw [f.registry]
  leaf := f.leaf
  owner := f.owner
  hub := f.hub

/-- A board with the same leaves and hubs. -/
theorem Outline.of_same (hc : b'.registry.connections = b.registry.connections)
    (hl : b'.leaves = b.leaves) (hh : b'.hubs = b.hubs) : Outline b b' := by
  have hleaf : ∀ l, b'.leaf l = b.leaf l := fun l => by rw [Board.leaf, Board.leaf, hl]
  have hhub : ∀ h, b'.hub h = b.hub h := fun h => by rw [Board.hub, Board.hub, hh]
  refine ⟨hc, fun l => ?_, fun l => by rw [hleaf], fun h => ?_⟩
  · rw [hleaf]
    exact .refl _
  · rw [hhub]
    exact .refl _

theorem Outline.wrap (o : Outline b b') (h : HubId) : (b'.hub h).wrap = (b.hub h).wrap :=
  Hub.wrap_congr (o.hub h).name

/-! ### Texts -/

/-- The text of a hub wrapped with its id, as a consumer gets it. -/
def text (b : Board) (h : HubId) : String := (b.json h).2

theorem text_of_volatile (hv : (b.hub h).isVolatile = true) :
    b.text h = (b.hub h).wrap (b.liveText h) := by
  unfold text json
  rw [if_pos hv]

theorem text_of_wrapped (hv : (b.hub h).isVolatile = false) {w : String}
    (hw : (b.hub h).wrapped = some w) : b.text h = w := by
  unfold text json
  rw [hv, hw]
  rfl

/-- The live text shows the leaves of a hub and nothing else. -/
theorem render_capture_congr (hs : (b.hub h).table.IsSlotted)
    (ht : (b'.hub h).table = (b.hub h).table)
    (hl : ∀ l ∈ (b.hub h).table.leaves,
      (b'.leaf l).isArray = (b.leaf l).isArray ∧ (b'.leaf l).values = (b.leaf l).values)
    (time time' : Timestamp) :
    b'.render h (b'.capture h time') = b.render h (b.capture h time) := by
  unfold render capture
  rw [ht, LeafTable.render_capture hs, LeafTable.render_capture hs]
  have hf : ∀ f ∈ (b.hub h).table.fields,
      LeafTable.fieldText b'.leaf f = LeafTable.fieldText b.leaf f := by
    intro f hm
    obtain ⟨ha, hv⟩ := hl f.2 (LeafTable.mem_leaves_of_mem_fields hm)
    rw [LeafTable.fieldText, LeafTable.fieldText, ha, hv]
  rw [List.map_congr_left hf]

/-- **A hub shows the same** as long as what it renders, or the text that it keeps, is the same. -/
theorem text_of_same (hs : (b.hub h).table.IsSlotted) (hf : b.Fresh h)
    (ha : Hub.Alike (b.hub h) (b'.hub h))
    (hw : (b'.hub h).wrapped = (b.hub h).wrapped)
    (hl : (b.hub h).isVolatile = true → ∀ l ∈ (b.hub h).table.leaves,
      (b'.leaf l).isArray = (b.leaf l).isArray ∧ (b'.leaf l).values = (b.leaf l).values) :
    b'.text h = b.text h := by
  have hwrap := Hub.wrap_congr ha.name
  cases hv : (b.hub h).isVolatile with
  | true =>
    rw [text_of_volatile hv, text_of_volatile (ha.isVolatile.trans hv), hwrap, liveText, liveText,
      render_capture_congr hs ha.table (hl hv)]
  | false =>
    -- a hub that is not volatile has kept its text, so the leaves do not count
    obtain ⟨w, hkept⟩ : ∃ w, (b.hub h).wrapped = some w := by
      rcases hf with hf | ⟨-, hf⟩
      · rw [hv] at hf
        cases hf
      · exact Option.ne_none_iff_exists'.1 hf
    rw [text_of_wrapped hv hkept, text_of_wrapped (ha.isVolatile.trans hv) (hw.trans hkept)]

/-- **After it is posted a hub shows the line that it published.** -/
theorem text_post (hb : Sound b) (h : HubId) (time : Timestamp) :
    (b.post h time).text h = (b.hub h).wrap (b.postedLine h time) := by
  have ha := (Frame.post b h time).hub h
  have hwrap := (Frame.post b h time).outline.wrap h
  cases hv : (b.hub h).isVolatile with
  | true =>
    have hl : (b.post h time).liveText h = b.postedLine h time := by
      have hs : ((b.stamp h time).hub h).table.IsSlotted := hb.slotted h
      refine render_capture_congr hs ha.table (fun l _ => ?_) time _
      rw [leaf_post]
      exact ⟨rfl, rfl⟩
    rw [text_of_volatile (ha.isVolatile.trans hv), hwrap, hl]
  | false =>
    refine text_of_wrapped (ha.isVolatile.trans hv) ?_
    rw [hub_post, if_pos rfl]
    rfl

/-! ### What keeps a text -/

/-- Leaves that stay as they are keep a text, if the hub renders and keeps the same. -/
theorem text_of_leaves (hb : Sound b) (hf : b.Fresh h) (hh : Hub.Alike (b.hub h) (b'.hub h))
    (hw : (b'.hub h).wrapped = (b.hub h).wrapped) (hl : ∀ l, b'.leaf l = b.leaf l) :
    b'.text h = b.text h :=
  text_of_same (hb.slotted h) hf hh hw fun _ l _ => by rw [hl]; exact ⟨rfl, rfl⟩

theorem text_setConsumer (hb : Sound b) (hf : b.Fresh h) (c : ConsumerId) (x : Consumer) :
    (b.setConsumer c x).text h = b.text h :=
  text_of_leaves hb hf (.refl _) rfl fun _ => rfl

theorem text_note (hb : Sound b) (hf : b.Fresh h) (e : Event) : (b.note e).text h = b.text h :=
  text_of_leaves hb hf (.refl _) rfl fun _ => rfl

theorem text_leave (hb : Sound b) (hf : b.Fresh h) (k : HubId) (gone : List ConsumerId) :
    (b.modifyHub k (·.unsubscribeAll gone)).text h = b.text h := by
  refine text_of_leaves hb hf ?_ ?_ fun _ => rfl
  · exact (Frame.modifyHub b ⟨rfl, rfl, rfl, rfl⟩).hub h
  · rw [hub_modifyHub]
    split
    · rename_i hk
      subst hk
      rfl
    · rfl

/-- Reading a text changes only a hub that does not keep one. -/
theorem hub_json_of_fresh (hf : b.Fresh h) (k : HubId) :
    (b.json k).1.hub h = b.hub h ∧ (b.formatted k).1.hub h = b.hub h := by
  by_cases hk : k = h
  · subst hk
    rw [json_of_fresh hf, formatted_of_fresh hf]
    exact ⟨rfl, rfl⟩
  · have hne : (b.formatted k).1.hub h = b.hub h := by
      rcases b.formatted_fst k with e | ⟨-, -, e⟩ <;> rw [e]
      rw [hub_modifyHub, if_neg hk]
    refine ⟨?_, hne⟩
    rcases b.json_fst k with e | ⟨-, -, e⟩ <;> rw [e]
    rw [hub_modifyHub, if_neg hk]
    exact hne

theorem text_json (hb : Sound b) (hf : b.Fresh h) (k : HubId) :
    (b.json k).1.text h = b.text h := by
  refine text_of_leaves hb hf ((Frame.json b k).hub h) ?_ (leaf_json b k)
  rw [(hub_json_of_fresh hf k).1]

theorem text_formatted (hb : Sound b) (hf : b.Fresh h) (k : HubId) :
    (b.formatted k).1.text h = b.text h := by
  refine text_of_leaves hb hf ((Frame.formatted b k).hub h) ?_ (leaf_formatted b k)
  rw [(hub_json_of_fresh hf k).2]

/-- A meter that counts shows the same peak. -/
theorem text_tick (hb : Sound b) (hf : b.Fresh h) {l : LeafId} {m : Meter} (steps : Int)
    (body : (b.leaf l).body = .meter m) :
    (b.modifyLeaf l fun x => { x with body := .meter { m with count := m.count + steps } }).text h =
      b.text h := by
  refine text_of_same (hb.slotted h) hf (.refl _) rfl fun _ k _ => ?_
  rw [leaf_modifyLeaf]
  split
  · rename_i hk
    subst hk
    unfold Leaf.isArray Leaf.values
    rw [body]
    exact ⟨rfl, rfl⟩
  · exact ⟨rfl, rfl⟩

/-! ### The number of open connections -/

/-- The hub that a change of the number of open connections publishes. -/
def connectionsHub (b : Board) : Option HubId := (b.leaf b.registry.connections).owner

/-- Whether the text of a hub shows the number of open connections as it is. -/
def ShowsCount (b : Board) (h : HubId) : Prop :=
  b.connectionsHub = some h ∨
    (b.hub h).isVolatile = true ∧ b.registry.connections ∈ (b.hub h).table.leaves

/-- Whether the text of a hub may change when a session ends. A volatile hub may also share a slot
with the hub that is published then. -/
def IsExposed (b : Board) (h : HubId) : Prop :=
  b.connectionsHub = some h ∨
    (b.hub h).isVolatile = true ∧ ∃ l ∈ (b.hub h).table.leaves, l = b.registry.connections ∨
      ∃ k, b.connectionsHub = some k ∧ (b.hub k).table.isReserved l = true

theorem Outline.connectionsHub (o : Outline b b') : b'.connectionsHub = b.connectionsHub := by
  unfold Board.connectionsHub
  rw [o.connections, o.owner]

theorem Outline.showsCount (o : Outline b b') (h : HubId) : b'.ShowsCount h ↔ b.ShowsCount h := by
  unfold ShowsCount
  rw [o.connectionsHub, (o.hub h).isVolatile, (o.hub h).table, o.connections]

theorem Outline.isExposed (o : Outline b b') (h : HubId) : b'.IsExposed h ↔ b.IsExposed h := by
  unfold IsExposed
  rw [o.connectionsHub, (o.hub h).isVolatile, (o.hub h).table, o.connections]
  simp only [fun k => (o.hub k).table]

/-- A hub that shows the number of open connections has their counter among its leaves. -/
theorem ShowsCount.mem (hs : b.ShowsCount h) (hb : Sound b) :
    b.registry.connections ∈ (b.hub h).table.leaves := by
  rcases hs with hs | ⟨-, hl⟩
  · exact ((b.hub h).table.mem_leaves_iff _).2 (.inr (hb.owned _ h hs))
  · exact hl

/-- The counter shows the number of open connections. -/
theorem values_connections (hc : (b.leaf b.registry.connections).sort = .counter) :
    (b.leaf b.registry.connections).isArray = false ∧
      (b.leaf b.registry.connections).values = [.integer b.connectionCount] := by
  unfold connectionCount Leaf.isArray Leaf.values
  unfold Leaf.sort at hc
  cases hbody : (b.leaf b.registry.connections).body with
  | counter n => exact ⟨rfl, rfl⟩
  | scalar v => rw [hbody] at hc; cases hc
  | array vs => rw [hbody] at hc; cases hc
  | meter m => rw [hbody] at hc; cases hc

/-- Whether a text is one that a hub gave while there were `n` open connections. -/
def Reads (b : Board) (h : HubId) (text : String) (n : Int) : Prop :=
  ∃ b' time, Outline b b' ∧ b'.connectionCount = n ∧
    text = (b.hub h).wrap (b'.render h (b'.capture h time))

theorem Reads.of_outline (o : Outline b b') {text : String} {n : Int} (r : b'.Reads h text n) :
    b.Reads h text n := by
  obtain ⟨c, time, oc, hc, rfl⟩ := r
  exact ⟨c, time, o.trans oc, hc, by rw [o.wrap]⟩

/-- **A text shows one number of open connections.** -/
theorem Reads.unique (hb : Sound b) (hs : b.ShowsCount h) {text : String} {n m : Int}
    (hn : InWord n) (hm : InWord m) (r : b.Reads h text n) (r' : b.Reads h text m) : n = m := by
  obtain ⟨c, time, o, rfl, rfl⟩ := r
  obtain ⟨d, time', o', rfl, he⟩ := r'
  have hl := hs.mem hb
  -- the wrapping and the rendering can be undone, down to the text of the counter
  have hr := String.ofList_injective (Hub.wrap_injective _ he)
  unfold capture at hr
  rw [(o.hub h).table, (o'.hub h).table] at hr
  have hv := LeafTable.values_of_render_eq (hb.slotted h)
    (fun l => ((o'.leaf l).isArray.trans (o.leaf l).isArray.symm)) hr hl
  have hc : (c.leaf c.registry.connections).sort = .counter := by
    rw [o.connections, (o.leaf _).sort]
    exact hb.counter
  have hd : (d.leaf d.registry.connections).sort = .counter := by
    rw [o'.connections, (o'.leaf _).sort]
    exact hb.counter
  obtain ⟨ha, hcv⟩ := values_connections hc
  obtain ⟨-, hdv⟩ := values_connections hd
  rw [o.connections] at ha hcv
  rw [o'.connections] at hdv
  rw [ha, hcv, hdv] at hv
  have hone : ∀ l : Literal, LeafTable.valuesText false [l] = l.json := fun _ => rfl
  rw [hone, hone] at hv
  exact Literal.eq_of_json_integer hn hm hv

/-! ### The number of open connections while hubs are published -/

theorem connectionCount_eq (b : Board) :
    b.connectionCount = (b.leaf b.registry.connections).count := by
  unfold connectionCount Leaf.count
  cases (b.leaf b.registry.connections).body <;> rfl

theorem connectionCount_congr (hc : b'.registry.connections = b.registry.connections)
    (hl : (b'.leaf b.registry.connections).count = (b.leaf b.registry.connections).count) :
    b'.connectionCount = b.connectionCount := by
  rw [connectionCount_eq, connectionCount_eq, hc, hl]

/-- A change of a leaf that does not count leaves the number as it is. -/
theorem connectionCount_modifyLeaf {l : LeafId} {f : Leaf → Leaf}
    (hf : (f (b.leaf l)).count = (b.leaf l).count) :
    (b.modifyLeaf l f).connectionCount = b.connectionCount := by
  refine connectionCount_congr rfl ?_
  rw [leaf_modifyLeaf]
  split
  · rename_i hl
    rw [hf, hl]
  · rfl

theorem connectionCount_stamp (b : Board) (h : HubId) (time : Timestamp) :
    (b.stamp h time).connectionCount = b.connectionCount := by
  unfold stamp Leaf.write
  dsimp only
  rw [connectionCount_modifyLeaf (Leaf.count_writeAll _ _ _),
    connectionCount_modifyLeaf (Leaf.count_writeAll _ _ _)]

theorem connectionCount_post (b : Board) (h : HubId) (time : Timestamp) :
    (b.post h time).connectionCount = b.connectionCount := by
  rw [← connectionCount_stamp b h time]
  refine connectionCount_congr ?_ (congrArg Leaf.count (leaf_post b h time _))
  rw [(Frame.post b h time).registry]
  rfl

theorem connectionCount_json (b : Board) (k : HubId) :
    (b.json k).1.connectionCount = b.connectionCount := by
  refine connectionCount_congr ?_ (congrArg Leaf.count (leaf_json b k _))
  rw [(Frame.json b k).registry]

theorem connectionCount_formatted (b : Board) (k : HubId) :
    (b.formatted k).1.connectionCount = b.connectionCount := by
  refine connectionCount_congr ?_ (congrArg Leaf.count (leaf_formatted b k _))
  rw [(Frame.formatted b k).registry]

theorem connectionCount_tick {l : LeafId} {m : Meter} (steps : Int)
    (body : (b.leaf l).body = .meter m) :
    (b.modifyLeaf l fun x =>
      { x with body := .meter { m with count := m.count + steps } }).connectionCount =
      b.connectionCount := by
  refine connectionCount_modifyLeaf ?_
  unfold Leaf.count
  rw [body]

/-- The number after the counter of open connections moves. -/
theorem connectionCount_count {n : Int} (steps : Int)
    (body : (b.leaf b.registry.connections).body = .counter n) :
    (b.modifyLeaf b.registry.connections fun x =>
      { x with body := .counter (n + steps), updatedAt := some b.wall }).connectionCount =
      b.connectionCount + steps := by
  have hn : b.connectionCount = n := by
    unfold connectionCount
    rw [body]
  rw [hn, connectionCount_eq]
  show ((b.modifyLeaf _ _).leaf b.registry.connections).count = _
  rw [leaf_modifyLeaf, if_pos rfl]
  rfl

/-! ### Hubs that a session end does not touch -/

/-- The counter of open connections moves out of sight of a hub that is not exposed. -/
theorem text_count (hb : Sound b) (hf : b.Fresh h) (hx : ¬b.IsExposed h) (f : Leaf → Leaf) :
    (b.modifyLeaf b.registry.connections f).text h = b.text h := by
  refine text_of_same (hb.slotted h) hf (.refl _) rfl fun hv l hl => ?_
  have hne : b.registry.connections ≠ l := fun e => hx (.inr ⟨hv, l, hl, .inl e.symm⟩)
  rw [leaf_modifyLeaf, if_neg hne]
  exact ⟨rfl, rfl⟩

/-- The hub that a session end publishes is posted out of sight of a hub that is not exposed. -/
theorem text_post_of_not_isExposed (hb : Sound b) (hf : b.Fresh h) (hx : ¬b.IsExposed h)
    {k : HubId} (hk : b.connectionsHub = some k) (time : Timestamp) :
    (b.post k time).text h = b.text h := by
  have hne : k ≠ h := fun e => hx (.inl (e ▸ hk))
  have hh : (b.post k time).hub h = b.hub h := by rw [hub_post, if_neg hne]
  refine text_of_same (hb.slotted h) hf (hh ▸ .refl _) (by rw [hh]) fun hv l hl => ?_
  have hr : (b.hub k).table.isReserved l = false := by
    cases hr : (b.hub k).table.isReserved l with
    | false => rfl
    | true => exact absurd (.inr ⟨hv, l, hl, .inr ⟨k, hk, hr⟩⟩) hx
  rw [leaf_post, leaf_stamp_of_not_isReserved b k time hr]
  exact ⟨rfl, rfl⟩

/-! ### Hubs that show the number of open connections -/

theorem reads_live (hv : (b.hub h).isVolatile = true) :
    b.Reads h (b.text h) b.connectionCount :=
  ⟨b, b.wall, .refl b, rfl, text_of_volatile hv⟩

/-- A published line shows the number of open connections. -/
theorem reads_postedLine (b : Board) (h : HubId) (time : Timestamp) :
    b.Reads h ((b.hub h).wrap (b.postedLine h time)) b.connectionCount :=
  ⟨b.stamp h time, time, (Frame.stamp b h time).outline, connectionCount_stamp b h time, rfl⟩

/-- After the hub that a session end publishes is posted, the number is shown as it is. -/
theorem reads_post (hb : Sound b) (hs : b.ShowsCount h) {k : HubId}
    (hk : b.connectionsHub = some k) (time : Timestamp) :
    b.Reads h ((b.post k time).text h) b.connectionCount := by
  by_cases hkh : k = h
  · subst hkh
    rw [text_post hb]
    exact reads_postedLine b k time
  · have hv : (b.hub h).isVolatile = true := by
      rcases hs with hs | ⟨hv, -⟩
      · exact absurd (Option.some.inj (hk.symm.trans hs)) hkh
      · exact hv
    have o := (Frame.post b k time).outline
    have hr := reads_live (b := b.post k time) ((o.hub h).isVolatile.trans hv)
    rw [connectionCount_post] at hr
    exact hr.of_outline o

/-! ### Texts are kept -/

/-- A hub keeps the text that it has, or renders it anew, whatever is published. -/
theorem Move.fresh {A : Action → Prop} (m : Move A b b') (hf : b.Fresh h) : b'.Fresh h := by
  -- a change of a hub that keeps its texts
  have hsame : ∀ {k : HubId} {f : Hub → Hub}, (f (b.hub k)).isVolatile = (b.hub k).isVolatile →
      (f (b.hub k)).formatted = (b.hub k).formatted → (f (b.hub k)).wrapped = (b.hub k).wrapped →
      (b.modifyHub k f).Fresh h := by
    intro k f hv ht hw
    unfold Fresh
    rw [hub_modifyHub]
    split
    · rename_i hk
      subst hk
      rw [hv, ht, hw]
      exact hf
    · exact hf
  cases m with
  | post k time _ =>
    by_cases hk : k = h
    · subst hk
      exact fresh_post b k time
    · rw [Fresh, hub_post, if_neg hk]
      exact hf
  | subscribe _ _ k c _ _ =>
    refine hsame ?_ ?_ ?_ <;> unfold Hub.subscribe <;> split <;> rfl
  | unsubscribe _ _ k c _ _ => exact hsame rfl rfl rfl
  | leave k gone _ => exact hsame rfl rfl rfl
  | formatted k _ =>
    rw [Fresh, (hub_json_of_fresh hf k).2]
    exact hf
  | json k _ =>
    rw [Fresh, (hub_json_of_fresh hf k).1]
    exact hf
  | _ => exact hf

theorem Moves.fresh {A : Action → Prop} (m : Moves A b b') (hf : b.Fresh h) : b'.Fresh h := by
  induction m with
  | refl => exact hf
  | tail _ m ih => exact m.fresh ih

end Board

end Switchboard
