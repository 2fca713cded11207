import Spectator.Lib.Pattern
import Spectator.Utils.Convert

/-!
# Addresses

The model of `ParseUdpAddress` and `ParseUnixAddress` of `registry.cpp`. The two `std::regex`
patterns are `Pattern`s; the port goes through `std::stoi` before its range is checked.

* `udpPattern`, `unixPattern`: `udp://([0-9.]+):(\d+)` and `unix://(.*)`.
* `UdpForm`, `UnixForm`: what the patterns mean, and `matchUdp_iff`, `matchUnix_iff`: that they do.
* `parseUdpAddress_form`, `parseUdpAddress_bad`: the result for a string of the form, and for any
  other. The same for `parseUnixAddress`.
* `parseUdpAddress_reported_iff`: when a string that is rejected is a `std::runtime_error`.
-/

namespace Spectator

/-- The class `[0-9.]`. -/
def isIpChar (c : UInt8) : Bool := isDigit c || c == ch '.'

/-- The class `.` of ECMAScript: no line terminator. -/
def isAnyChar (c : UInt8) : Bool := c != ch '\n' && c != ch '\r'

def udpPattern : List (Pattern.Item UInt8) :=
  [.lit (str "udp://"), .group isIpChar 1, .lit (str ":"), .group isDigit 1]

def unixPattern : List (Pattern.Item UInt8) := [.lit (str "unix://"), .group isAnyChar 0]

/-- `std::regex_match`: the whole text, then the groups. -/
def regexMatch (address : Str) (pattern : List (Pattern.Item UInt8)) : Option (List Str) :=
  (Pattern.fullMatch pattern address).map fun groups => address :: groups

/-- `ParseUdpAddress`. -/
def parseUdpAddress (address : Str) : Except Exn (Str × Int) :=
  match regexMatch address udpPattern with
  | some [_, ip, digits] =>
    match stoi digits with
    | .error e => .error e
    | .ok port =>
      if port < 0 ∨ port > 65535 then
        .error (.runtimeError (str "Port number out of valid range (0-65535)"))
      else .ok (ip, port)
  | _ => .error (.runtimeError (str "Invalid UDP address format"))

/-- `ParseUnixAddress`. -/
def parseUnixAddress (address : Str) : Except Exn Str :=
  match regexMatch address unixPattern with
  | some [_, path] => .ok path
  | _ => .error (.runtimeError (str "Invalid Unix address format"))

/-! ## What the patterns mean -/

/-- `address` is `udp://` and `ip`, a colon and the digits `d`. -/
structure UdpForm (address ip d : Str) : Prop where
  eq : address = str "udp://" ++ ip ++ str ":" ++ d
  ip_ne : ip ≠ []
  ip_chars : ∀ c ∈ ip, isDigit c = true ∨ c = ch '.'
  digits_ne : d ≠ []
  digits : ∀ c ∈ d, isDigit c = true

/-- `address` is `unix://` and `path`, without a line feed or a carriage return. -/
structure UnixForm (address path : Str) : Prop where
  eq : address = str "unix://" ++ path
  lineFeed : ch '\n' ∉ path
  carriageReturn : ch '\r' ∉ path

theorem isIpChar_iff {c : UInt8} : isIpChar c = true ↔ isDigit c = true ∨ c = ch '.' := by
  simp [isIpChar]

/-- The check of all characters at once. -/
theorem ipChars_of_all {ip : Str} (h : ip.all isIpChar = true) :
    ∀ c ∈ ip, isDigit c = true ∨ c = ch '.' :=
  fun c hc => isIpChar_iff.mp (List.all_eq_true.mp h c hc)

theorem isAnyChar_iff {s : Str} : (∀ c ∈ s, isAnyChar c = true) ↔ ch '\n' ∉ s ∧ ch '\r' ∉ s := by
  have hc : ∀ c, isAnyChar c = true ↔ c ≠ ch '\n' ∧ c ≠ ch '\r' := by simp [isAnyChar]
  constructor
  · intro h
    exact ⟨fun hn => ((hc _).mp (h _ hn)).1 rfl, fun hr => ((hc _).mp (h _ hr)).2 rfl⟩
  · rintro ⟨hn, hr⟩ c hmem
    refine (hc c).mpr ⟨?_, ?_⟩
    · rintro rfl; exact hn hmem
    · rintro rfl; exact hr hmem

theorem udpPattern_delimited : Pattern.Delimited udpPattern := ⟨by decide, trivial⟩

theorem unixPattern_delimited : Pattern.Delimited unixPattern := trivial

/-- The UDP pattern matches the strings of the form, with the address and the digits as its
groups. -/
theorem matchUdp_iff {address : Str} {groups : List Str} :
    Pattern.fullMatch udpPattern address = some groups ↔
      ∃ ip d, groups = [ip, d] ∧ UdpForm address ip d := by
  rw [Pattern.fullMatch_iff udpPattern_delimited]
  constructor
  · intro h
    cases h with
    | lit _ h =>
    cases h with
    | group ip hip hlip h =>
    cases h with
    | lit _ h =>
    cases h with
    | group d hd hld h =>
    cases h with
    | nil =>
    refine ⟨ip, d, rfl, by simp, List.ne_nil_of_length_pos hlip,
      fun c hc => isIpChar_iff.mp (hip c hc), List.ne_nil_of_length_pos hld, hd⟩
  · rintro ⟨ip, d, rfl, rfl, hip, hipc, hd, hdc⟩
    have h : Pattern.Matches udpPattern [ip, d] (str "udp://" ++ (ip ++ (str ":" ++ (d ++ [])))) :=
      .lit _ (.group ip (fun c hc => isIpChar_iff.mpr (hipc c hc)) (List.length_pos_of_ne_nil hip)
        (.lit _ (.group d hdc (List.length_pos_of_ne_nil hd) .nil)))
    rwa [List.append_nil, ← List.append_assoc, ← List.append_assoc] at h

/-- The Unix pattern matches the strings of the form, with the path as its group. -/
theorem matchUnix_iff {address : Str} {groups : List Str} :
    Pattern.fullMatch unixPattern address = some groups ↔
      ∃ path, groups = [path] ∧ UnixForm address path := by
  rw [Pattern.fullMatch_iff unixPattern_delimited]
  constructor
  · intro h
    cases h with
    | lit _ h =>
    cases h with
    | group path hp _ h =>
    cases h with
    | nil =>
    obtain ⟨hn, hr⟩ := isAnyChar_iff.mp hp
    exact ⟨path, rfl, by simp, hn, hr⟩
  · rintro ⟨path, rfl, rfl, hn, hr⟩
    have h : Pattern.Matches unixPattern [path] (str "unix://" ++ (path ++ [])) :=
      .lit _ (.group path (isAnyChar_iff.mpr ⟨hn, hr⟩) (Nat.zero_le _) .nil)
    rwa [List.append_nil] at h

/-! ## The results -/

/-- A string of the form: the conversion fails from `2 ^ 31` on, then the range check from `65536`
on. -/
theorem parseUdpAddress_form {address ip d : Str} (h : UdpForm address ip d) :
    parseUdpAddress address =
      if decimal d ≤ 65535 then .ok (ip, (decimal d : Int))
      else if decimal d < 2 ^ 31 then
        .error (.runtimeError (str "Port number out of valid range (0-65535)"))
      else .error .outOfRange := by
  have hm : regexMatch address udpPattern = some [address, ip, d] := by
    rw [regexMatch, matchUdp_iff.mpr ⟨ip, d, rfl, h⟩]
    rfl
  unfold parseUdpAddress
  rw [hm]
  dsimp only
  rw [stoi_digits h.digits_ne h.digits]
  by_cases hlong : decimal d < 2 ^ 31
  · rw [if_pos hlong]
    dsimp only
    by_cases hport : decimal d ≤ 65535
    · rw [if_neg (by omega), if_pos hport]
    · rw [if_pos (by omega), if_neg hport, if_pos hlong]
  · rw [if_neg hlong, if_neg (by omega), if_neg hlong]

example : parseUdpAddress (str "udp://1.2.3.4:5:6") =
    .error (.runtimeError (str "Invalid UDP address format")) := by decide

/-- Any other string. -/
theorem parseUdpAddress_bad {address : Str} (h : ∀ ip d, ¬ UdpForm address ip d) :
    parseUdpAddress address = .error (.runtimeError (str "Invalid UDP address format")) := by
  have hm : regexMatch address udpPattern = none := by
    rw [regexMatch, Option.map_eq_none_iff, Option.eq_none_iff_forall_ne_some]
    intro groups hg
    obtain ⟨ip, d, -, hf⟩ := matchUdp_iff.mp hg
    exact h ip d hf
  unfold parseUdpAddress
  rw [hm]

/-! ## The errors -/

/-- The results that `ParseUdpAddress` is to have: the parts of the address, with a port in range,
or a `std::runtime_error`. -/
inductive UdpReported (address : Str) : Except Exn (Str × Int) → Prop
  | parsed {ip d : Str} : UdpForm address ip d → decimal d ≤ 65535 →
      UdpReported address (.ok (ip, (decimal d : Int)))
  | runtimeError (what : Str) : UdpReported address (.error (.runtimeError what))

/-- **When a rejected address is a `std::runtime_error`**: for every string that is not of the form,
and for one of the form exactly if the port fits the `int` of the conversion. Otherwise the
exception of `std::stoi` escapes before the range check. -/
theorem parseUdpAddress_reported_iff (address : Str) :
    UdpReported address (parseUdpAddress address) ↔
      ∀ ip d, UdpForm address ip d → decimal d < 2 ^ 31 := by
  constructor
  · intro h ip d hform
    by_contra hlong
    rw [parseUdpAddress_form hform, if_neg (by omega), if_neg hlong] at h
    cases h
  · intro h
    by_cases hform : ∃ ip d, UdpForm address ip d
    · obtain ⟨ip, d, hform⟩ := hform
      rw [parseUdpAddress_form hform]
      by_cases hport : decimal d ≤ 65535
      · rw [if_pos hport]
        exact .parsed hform hport
      · rw [if_neg hport, if_pos (h ip d hform)]
        exact .runtimeError _
    · rw [parseUdpAddress_bad fun ip d h => hform ⟨ip, d, h⟩]
      exact .runtimeError _

/-- A port that does not fit: the least one that `std::stoi` rejects. -/
theorem parseUdpAddress_escapes :
    parseUdpAddress (str "udp://127.0.0.1:2147483648") = .error .outOfRange ∧
      ¬ UdpReported (str "udp://127.0.0.1:2147483648")
        (parseUdpAddress (str "udp://127.0.0.1:2147483648")) := by
  have hres : parseUdpAddress (str "udp://127.0.0.1:2147483648") = .error .outOfRange := by decide
  refine ⟨hres, ?_⟩
  rw [hres]
  nofun

theorem parseUnixAddress_form {address path : Str} (h : UnixForm address path) :
    parseUnixAddress address = .ok path := by
  have hm : regexMatch address unixPattern = some [address, path] := by
    rw [regexMatch, matchUnix_iff.mpr ⟨path, rfl, h⟩]
    rfl
  unfold parseUnixAddress
  rw [hm]

theorem parseUnixAddress_bad {address : Str} (h : ∀ path, ¬ UnixForm address path) :
    parseUnixAddress address = .error (.runtimeError (str "Invalid Unix address format")) := by
  have hm : regexMatch address unixPattern = none := by
    rw [regexMatch, Option.map_eq_none_iff, Option.eq_none_iff_forall_ne_some]
    intro groups hg
    obtain ⟨path, -, hf⟩ := matchUnix_iff.mp hg
    exact h path hf
  unfold parseUnixAddress
  rw [hm]

end Spectator
