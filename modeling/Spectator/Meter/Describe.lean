import Spectator.Lib.Getline
import Spectator.Meter.MeterId

/-!
# The text of an id for people

The model of `MeterId::to_string`: the name and the validated tags, each key and value in quotes.

* `describeTags`: the loop over `m_tags`. `MeterId.toString`: the whole text.
* `MeterId.toString_eq`: the text, cut at its quotes.
* `toString_identifies`: where there is no quote in them, the name and the tags can be read off.
-/

namespace Spectator

/-- The quote around keys and values. -/
def quote : UInt8 := 39

/-- The loop over `m_tags`, with the flag `first`. -/
def describeTags : List (Str × Str) → Bool → Str → Str
  | [], _, ss => ss
  | (key, value) :: rest, first, ss =>
    let ss := if !first then ss ++ str ", " else ss
    describeTags rest false (ss ++ str "'" ++ key ++ str "': '" ++ value ++ str "'")

/-- `to_string`; `o` is the order of `m_tags`. The two escapes are the braces. -/
def MeterId.toString (m : MeterId) (o : m.tags.Iteration) : Str :=
  let ss := str "MeterId(name=" ++ m.name ++ str ", tags=\x7b"
  let ss := describeTags o.toList true ss
  ss ++ str "\x7d)"

/-! ## The pieces between the quotes -/

/-- The pieces after the first entry. -/
def laterPieces : List (Str × Str) → List Str
  | [] => [str "\x7d)"]
  | (key, value) :: rest => str ", " :: key :: str ": " :: value :: laterPieces rest

/-- The text before the first quote, and the pieces after it. -/
def quotedPieces (name : Str) : List (Str × Str) → List Str
  | [] => [str "MeterId(name=" ++ name ++ str ", tags=\x7b\x7d)"]
  | (key, value) :: rest =>
    (str "MeterId(name=" ++ name ++ str ", tags=\x7b") :: key :: str ": " :: value ::
      laterPieces rest

theorem describeTags_false (entries : List (Str × Str)) (ss : Str) :
    describeTags entries false (ss ++ str "'") ++ str "\x7d)" =
      ss ++ (laterPieces entries).flatMap fun l => quote :: l := by
  induction entries generalizing ss with
  | nil =>
    rw [describeTags, List.append_assoc]
    rfl
  | cons e entries ih =>
    obtain ⟨key, value⟩ := e
    simp only [describeTags, Bool.not_false, if_true]
    rw [ih]
    simp [laterPieces, str, quote, ch, List.append_assoc]

/-- The text is its pieces, joined with quotes. -/
theorem MeterId.toString_eq (m : MeterId) (o : m.tags.Iteration) :
    m.toString o = [quote].intercalate (quotedPieces m.name o.toList) := by
  unfold toString
  cases o.toList with
  | nil => simp [describeTags, quotedPieces, str]
  | cons e entries =>
    obtain ⟨key, value⟩ := e
    simp only [describeTags, Bool.not_true, Bool.false_eq_true, if_false, quotedPieces]
    rw [describeTags_false, Getline.intercalate_cons_eq]
    simp [str, quote, ch, List.append_assoc]

theorem laterPieces_injective : Function.Injective laterPieces := by
  intro entries
  induction entries with
  | nil =>
    intro entries' h
    cases entries' with
    | nil => rfl
    | cons e entries' =>
      obtain ⟨-, h⟩ := List.cons.inj h
      cases h
  | cons e entries ih =>
    intro entries' h
    cases entries' with
    | nil =>
      obtain ⟨-, h⟩ := List.cons.inj h
      cases h
    | cons e' entries' =>
      obtain ⟨key, value⟩ := e
      obtain ⟨key', value'⟩ := e'
      simp only [laterPieces, List.cons.injEq, true_and] at h
      obtain ⟨rfl, rfl, hrest⟩ := h
      rw [ih hrest]

theorem quotedPieces_inj {name name' : Str} {entries entries' : List (Str × Str)}
    (h : quotedPieces name entries = quotedPieces name' entries') :
    name = name' ∧ entries = entries' := by
  cases entries with
  | nil =>
    cases entries' with
    | nil =>
      obtain ⟨h, -⟩ := List.cons.inj h
      exact ⟨List.append_cancel_left (List.append_cancel_right h), rfl⟩
    | cons e' entries' =>
      obtain ⟨-, h⟩ := List.cons.inj h
      cases h
  | cons e entries =>
    cases entries' with
    | nil =>
      obtain ⟨-, h⟩ := List.cons.inj h
      cases h
    | cons e' entries' =>
      obtain ⟨key, value⟩ := e
      obtain ⟨key', value'⟩ := e'
      simp only [quotedPieces, List.cons.injEq, true_and] at h
      obtain ⟨hname, rfl, rfl, hrest⟩ := h
      rw [laterPieces_injective hrest]
      exact ⟨List.append_cancel_left (List.append_cancel_right hname), rfl⟩

/-! ## Reading the id off its text -/

/-- There is no quote in the name, the keys and the values. -/
structure MeterId.Unquoted (m : MeterId) : Prop where
  name : quote ∉ m.name
  tags : ∀ k v, m.tags.lookup k = some v → quote ∉ k ∧ quote ∉ v

theorem notMem_laterPieces {entries : List (Str × Str)}
    (h : ∀ e ∈ entries, quote ∉ e.1 ∧ quote ∉ e.2) : ∀ l ∈ laterPieces entries, quote ∉ l := by
  induction entries with
  | nil =>
    intro l hl
    rw [List.mem_singleton.mp hl]
    decide
  | cons e entries ih =>
    obtain ⟨key, value⟩ := e
    obtain ⟨⟨hkey, hvalue⟩, hrest⟩ := List.forall_mem_cons.mp h
    simp only [laterPieces, List.forall_mem_cons]
    exact ⟨by decide, hkey, by decide, hvalue, ih hrest⟩

/-- The quotes are the only ones, so the pieces come back. -/
theorem MeterId.Unquoted.splitOn_toString {m : MeterId} (hm : m.Unquoted)
    (o : m.tags.Iteration) : (m.toString o).splitOn quote = quotedPieces m.name o.toList := by
  have hentries : ∀ e ∈ o.toList, quote ∉ e.1 ∧ quote ∉ e.2 := fun e he =>
    hm.tags e.1 e.2 ((o.mem_iff e.1 e.2).mp he)
  have hpieces : ∀ l ∈ quotedPieces m.name o.toList, quote ∉ l := by
    have hbefore : quote ∉ str "MeterId(name=" := by decide
    have hafter : quote ∉ str ", tags=\x7b" := by decide
    have hend : quote ∉ str ", tags=\x7b\x7d)" := by decide
    revert hentries
    cases o.toList with
    | nil =>
      intro _ l hl
      rw [List.mem_singleton.mp hl]
      simp [hbefore, hm.name, hend]
    | cons e entries =>
      obtain ⟨key, value⟩ := e
      intro hentries
      obtain ⟨⟨hkey, hvalue⟩, hrest⟩ := List.forall_mem_cons.mp hentries
      simp only [quotedPieces, List.forall_mem_cons]
      refine ⟨?_, hkey, by decide, hvalue, notMem_laterPieces hrest⟩
      simp [hbefore, hm.name, hafter]
  rw [toString_eq, List.splitOn_intercalate quote hpieces]
  unfold quotedPieces
  split <;> simp

/-- **The text identifies the id.** For two ids without quotes in them: they are equal if and only
if some orders of their tags give the same text; and two texts that are the same are so entry by
entry. -/
theorem toString_identifies {a b : MeterId} (ha : a.Unquoted) (hb : b.Unquoted) :
    ((∃ (oa : a.tags.Iteration) (ob : b.tags.Iteration), a.toString oa = b.toString ob) ↔
      (a == b) = true) ∧
    ∀ (oa : a.tags.Iteration) (ob : b.tags.Iteration), a.toString oa = b.toString ob →
      oa.toList = ob.toList := by
  have read : ∀ (oa : a.tags.Iteration) (ob : b.tags.Iteration), a.toString oa = b.toString ob →
      a.name = b.name ∧ oa.toList = ob.toList := by
    intro oa ob h
    apply quotedPieces_inj
    rw [← ha.splitOn_toString, ← hb.splitOn_toString, h]
  refine ⟨⟨?_, fun h => ?_⟩, fun oa ob h => (read oa ob h).2⟩
  · rintro ⟨oa, ob, h⟩
    obtain ⟨hname, hlist⟩ := read oa ob h
    refine MeterId.beq_iff.mpr ⟨hname, Finmap.ext_lookup fun k => Option.ext fun v => ?_⟩
    rw [← oa.mem_iff, ← ob.mem_iff, hlist]
  · obtain ⟨hname, htags⟩ := MeterId.beq_iff.mp h
    obtain ⟨oa⟩ := UMap.Iteration.nonempty a.tags
    refine ⟨oa, ⟨oa.toList, oa.nodupKeys, fun k v => by rw [oa.mem_iff, htags]⟩, ?_⟩
    rw [MeterId.toString_eq, MeterId.toString_eq, hname]

/-- One tag: the text, and what it is read as. -/
theorem toString_identifies_one_tag : ∃ (a b : MeterId) (oa : a.tags.Iteration)
    (ob : b.tags.Iteration), a.toString oa = str "MeterId(name=n, tags=\x7b'k': 'v'\x7d)" ∧
    a.toString oa = b.toString ob ∧ (a == b) = true := by
  let entries : List (Str × Str) := [(str "k", str "v")]
  let o : UMap.Iteration (validateTags entries) := .ofAssignIf validTag entries (by decide)
  let m : MeterId := .new (str "n") o
  let om : m.tags.Iteration := .ofAssignIf validTag o.toList o.nodupKeys
  have hm : m.Unquoted := by
    refine ⟨by decide, fun k v h => ?_⟩
    have he : (k, v) ∈ om.toList := (om.mem_iff k v).mpr h
    obtain ⟨rfl, rfl⟩ := Prod.mk.inj (List.mem_singleton.mp he)
    decide
  exact ⟨m, m, om, om, by decide, rfl, (toString_identifies hm hm).1.mp ⟨om, om, rfl⟩⟩

end Spectator
