import Spectator.Lib.Getline
import Spectator.Meter.MeterId

/-!
# Protocol lines

The model of `split` and `ParseProtocolLine` of `util.cpp`. The id of a parsed line is built from a
fresh map; the order in which the constructor visits that map is the argument `ord`.

* `split`: the `std::getline` loop (`Getline.pieces`). `split_law`: what it gives, and what is lost.
* `parseTags`: the loop over the pieces of the id.
* `parseProtocolLine`: the parser. `parseProtocolLine_join`: what it returns for three fields.
-/

namespace Spectator

/-- `split`. -/
def split (s : Str) (delimiter : UInt8) : List Str := Getline.pieces delimiter s

/-- `ProtocolLine`. -/
structure ProtocolLine where
  symbol : UInt8
  id : MeterId
  value : Str

/-- The loop over `idParts` from index 1: a piece with two parts at `=` is a tag. -/
def parseTags (idParts : List Str) : Tags :=
  idParts.foldl (fun tags part =>
    match split part (ch '=') with
    | [key, value] => tags.insert key value
    | _ => tags) ∅

/-- `ParseProtocolLine`. -/
def parseProtocolLine (ord : (tags : Tags) → tags.Iteration) (line : Str) : Option ProtocolLine :=
  match split line (ch ':') with
  | part₀ :: part₁ :: part₂ :: _ =>
    let symbol := match split part₀ (ch ',') with
      | (c :: _) :: _ => c
      | _ => 0
    let (name, tags) := match split part₁ (ch ',') with
      | [] => ([], ∅)
      | name :: idParts => (name, parseTags idParts)
    some { symbol := symbol, id := .new name (ord tags), value := part₂ }
  | _ => none

/-! ## `split` -/

/-- **Law of `split`.** For every string and delimiter: no piece contains the delimiter; there are
as many pieces as delimiters, and one more if the string is not empty and does not end with the
delimiter; joined with the delimiter, and with one more at the end exactly if the string ends with
one, the pieces give back the string. Of all pieces between the delimiters, the last one is lost if
it is empty, and no other. -/
theorem split_law (s : Str) (d : UInt8) :
    (∀ p ∈ split s d, d ∉ p) ∧
    (split s d).length = s.count d + (if s ≠ [] ∧ s.getLast? ≠ some d then 1 else 0) ∧
    [d].intercalate (split s d) ++ (if s.getLast? = some d then [d] else []) = s ∧
    s.splitOn d = split s d ++ (if (s.splitOn d).getLast? = some [] then [[]] else []) := by
  refine ⟨fun p hp => Getline.notMem_of_mem_pieces hp, ?_, Getline.intercalate_pieces d s, ?_⟩
  · have hends : (s ≠ [] ∧ s.getLast? ≠ some d) ↔ ¬ Getline.Ends d s := not_or.symm
    rw [split, Getline.length_pieces]
    by_cases he : Getline.Ends d s
    · rw [if_pos he, if_neg fun h => hends.mp h he]
    · rw [if_neg he, if_pos (hends.mpr he)]
  · -- The text ends where no piece follows exactly if the last of all pieces is empty.
    have hall := Getline.splitOn_eq_pieces d s
    rw [if_congr (Getline.ends_iff d s) rfl rfl] at hall
    exact hall

example : split (str ",a,,b,,") (ch ',') = [str "", str "a", str "", str "b", str ""] := by decide

/-! ## The fields of a line -/

/-- The symbol: the first byte of the first field, if that is no comma. -/
theorem split_symbol {c : UInt8} (hc : c ≠ ch ',') (rest : Str) :
    ∃ t ts, split (c :: rest) (ch ',') = (c :: t) :: ts := by
  rw [split, Getline.pieces_eq, Getline.next, if_neg (by simp),
    List.takeWhile_cons_of_pos (by simpa using hc)]
  exact ⟨_, _, rfl⟩

/-- A field of a name and segments that a comma starts: the name is the first piece, or there is no
piece at all, and the segments are the other pieces. -/
theorem split_id {name : Str} {segments : List Str} (hn : ch ',' ∉ name)
    (hs : ∀ s ∈ segments, ch ',' ∉ s ∧ s ≠ []) :
    split (name ++ segments.flatMap fun s => ch ',' :: s) (ch ',') = name :: segments ∨
      name = [] ∧ segments = [] ∧
        split (name ++ segments.flatMap fun s => ch ',' :: s) (ch ',') = [] := by
  by_cases hne : segments ≠ [] ∨ name ≠ []
  · exact .inl (Getline.pieces_append_flatMap hn hs hne)
  · obtain ⟨rfl, rfl⟩ : segments = [] ∧ name = [] := by
      simpa only [not_or, not_not] using hne
    exact .inr ⟨rfl, rfl, rfl⟩

/-- A piece `key=value` is a tag. -/
theorem split_tag {key value : Str} (hk : ch '=' ∉ key) (hv : ch '=' ∉ value) (hne : value ≠ []) :
    split (key ++ ch '=' :: value) (ch '=') = [key, value] := by
  rw [split, Getline.pieces_append_cons hk, Getline.pieces_of_notMem hv hne]

/-- The tags of the pieces `key=value`, in their order. -/
theorem parseTags_map {entries : List (Str × Str)}
    (h : ∀ e ∈ entries, ch '=' ∉ e.1 ∧ ch '=' ∉ e.2 ∧ e.2 ≠ []) :
    parseTags (entries.map fun e => e.1 ++ ch '=' :: e.2) = UMap.assign ∅ entries := by
  have loop : ∀ (es : List (Str × Str)) (tags : Tags),
      (∀ e ∈ es, ch '=' ∉ e.1 ∧ ch '=' ∉ e.2 ∧ e.2 ≠ []) →
      (es.map fun e => e.1 ++ ch '=' :: e.2).foldl (fun tags part =>
        match split part (ch '=') with
        | [key, value] => Finmap.insert key value tags
        | _ => tags) tags = UMap.assign tags es := by
    intro es
    induction es with
    | nil => intro tags _; rfl
    | cons e es ih =>
      intro tags he
      obtain ⟨hk, hv, hne⟩ := he e List.mem_cons_self
      rw [List.map_cons, List.foldl_cons, split_tag hk hv hne,
        ih _ fun e' he' => he e' (List.mem_cons_of_mem _ he')]
      rfl
  exact loop entries ∅ h

/-- The parser on three fields: a symbol field that starts with no comma, an id field of a name
and tags, and a value. -/
theorem parseProtocolLine_join (ord : (tags : Tags) → tags.Iteration) {c : UInt8}
    {rest name value : Str} {entries : List (Str × Str)} (hc : c ≠ ch ',')
    (hsym : ch ':' ∉ c :: rest) (hn : ch ',' ∉ name)
    (he : ∀ e ∈ entries, ch ',' ∉ e.1 ++ ch '=' :: e.2 ∧
      ch '=' ∉ e.1 ∧ ch '=' ∉ e.2 ∧ e.2 ≠ [])
    (hid : ch ':' ∉ name ++ (entries.map fun e => e.1 ++ ch '=' :: e.2).flatMap
      fun s => ch ',' :: s)
    (hv : ch ':' ∉ value) (hne : value ≠ []) :
    parseProtocolLine ord ((c :: rest) ++ ch ':' ::
      ((name ++ (entries.map fun e => e.1 ++ ch '=' :: e.2).flatMap fun s => ch ',' :: s) ++
        ch ':' :: value)) =
      some ⟨c, .new name (ord (UMap.assign ∅ entries)), value⟩ := by
  have hmain : ∀ id : Str, ch ':' ∉ id →
      split ((c :: rest) ++ ch ':' :: (id ++ ch ':' :: value)) (ch ':') =
        [c :: rest, id, value] := by
    intro id hid
    rw [split, Getline.pieces_append_cons hsym, Getline.pieces_append_cons hid,
      Getline.pieces_of_notMem hv hne]
  obtain ⟨t, ts, hs⟩ := split_symbol hc rest
  have htags := parseTags_map fun e h => (he e h).2
  have hpieces : ∀ s ∈ entries.map fun e => e.1 ++ ch '=' :: e.2, ch ',' ∉ s ∧ s ≠ [] := by
    intro s hs
    obtain ⟨e, hmem, rfl⟩ := List.mem_map.mp hs
    exact ⟨(he e hmem).1, by simp⟩
  unfold parseProtocolLine
  rw [hmain _ hid]
  dsimp only
  rw [hs]
  rcases split_id hn hpieces with h | ⟨rfl, hnil, h⟩
  · rw [h]
    dsimp only
    rw [htags]
  · rw [List.map_eq_nil_iff] at hnil
    subst hnil
    rw [h]
    rfl

end Spectator
