import Kulua.Foundation.Text

/-! `parse_notification_detail` of `protocol/notification.rs`: the package, the title and the
body out of the output of `cmd notification get`. -/

namespace Kulua.Notification
open Foundation.Text

structure NotifInfo where
  key : Str
  package : Str
  title : Option Str
  body : Option Str
  serial : Str
  deriving DecidableEq, Repr

def pkgMark : Str := "pkg=".toList
def titleMark : Str := "android.title=".toList
def textMark : Str := "android.text=".toList
def bigTextMark : Str := "android.bigText=".toList

/-- The value without the type and the brackets that it is printed in. -/
def unwrap (afterEq : Str) : Option Str :=
  if afterEq = [] then none
  else if afterEq.getLast? = some ')' ∧ '(' ∈ afterEq then
    let inner := trim (afterEq.rtakeWhile (· ≠ '(')).dropLast
    if inner = [] then none else some inner
  else some afterEq

def extractStringValue (line : Str) : Option Str :=
  (findAfter ['='] line).bind fun rest => unwrap (trim rest)

/-- The word behind the first `pkg=` of a line. -/
def packageIn (line : Str) : Option Str :=
  (findAfter pkgMark line).bind fun rest =>
    let val := rest.takeWhile (!isWhitespace ·)
    if val = [] then none else some val

structure Detail where
  pkg : Option Str
  title : Option Str
  body : Option Str

/-- One turn of the loop over the lines. -/
def Detail.read (d : Detail) (line : Str) : Detail :=
  let line := trim line
  let d := if d.pkg = none then { d with pkg := packageIn line } else d
  if d.title = none ∧ titleMark <:+: line then { d with title := extractStringValue line }
  else if d.body = none ∧ textMark <:+: line then { d with body := extractStringValue line }
  else if d.body = none ∧ bigTextMark <:+: line then { d with body := extractStringValue line }
  else d

def parseNotificationDetail (output key : Str) : Option NotifInfo :=
  let d := (lines output).foldl Detail.read ⟨none, none, none⟩
  d.pkg.map fun package => ⟨key, package, d.title, d.body, []⟩

/-- `v` stands between the last `(` and a `)` at the end, or it is all there is. -/
def Wraps (afterEq v : Str) : Prop :=
  v ≠ [] ∧ ((∃ kind inner, afterEq = kind ++ '(' :: (inner ++ [')']) ∧ '(' ∉ inner ∧
      trim inner = v) ∨
    afterEq = v ∧ ¬(v.getLast? = some ')' ∧ '(' ∈ v))

/-- The text behind the first `=` of the line shows the value. -/
def Shows (line v : Str) : Prop :=
  ∃ name rest, FirstAt ['='] line name rest ∧ Wraps (trim rest) v

private theorem wrapped_ends (kind inner : Str) :
    (kind ++ '(' :: (inner ++ [')'])).getLast? = some ')' ∧
      '(' ∈ kind ++ '(' :: (inner ++ [')']) := by
  constructor
  · rw [← List.cons_append, ← List.append_assoc, List.getLast?_concat]
  · simp

private theorem wrapped_inner (kind : Str) {inner : Str} (h : '(' ∉ inner) :
    ((kind ++ '(' :: (inner ++ [')'])).rtakeWhile (· ≠ '(')).dropLast = inner := by
  have htail : '(' ∉ inner ++ [')'] := by
    rw [List.mem_append]
    rintro (hin | hin)
    · exact h hin
    · cases List.mem_singleton.mp hin
  rw [rtakeWhile_last_split htail, List.dropLast_concat]

/-- A value that must not be empty. -/
private theorem nonempty_eq_some {val v : Str} :
    (if val = [] then none else some val) = some v ↔ v ≠ [] ∧ val = v := by
  rw [Option.ite_none_left_eq_some, Option.some.injEq]
  constructor
  · rintro ⟨hne, rfl⟩
    exact ⟨hne, rfl⟩
  · rintro ⟨hne, rfl⟩
    exact ⟨hne, rfl⟩

theorem unwrap_eq_some {afterEq v : Str} : unwrap afterEq = some v ↔ Wraps afterEq v := by
  unfold unwrap Wraps
  by_cases hwrapped : afterEq.getLast? = some ')' ∧ '(' ∈ afterEq
  · -- the tail behind the last `(` ends with the `)`
    obtain ⟨kind, tail, rfl, htail⟩ := exists_last_split hwrapped.2
    have hlast : tail.getLast? = some ')' := by
      have hends := hwrapped.1
      cases tail with
      | nil => simp at hends
      | cons c tail =>
        rw [List.getLast?_append, List.getLast?_cons_cons, List.getLast?_cons,
          Option.some_or] at hends
        rwa [List.getLast?_cons]
    obtain ⟨inner, rfl⟩ := List.getLast?_eq_some_iff.mp hlast
    have hinner : '(' ∉ inner := fun hin => htail (List.mem_append_left _ hin)
    have hvalue : (∃ kind' inner', kind ++ '(' :: (inner ++ [')']) =
        kind' ++ '(' :: (inner' ++ [')']) ∧ '(' ∉ inner' ∧ trim inner' = v) ↔ trim inner = v := by
      constructor
      · rintro ⟨kind', inner', hsame, hnot, rfl⟩
        rw [← wrapped_inner kind hinner, hsame, wrapped_inner kind' hnot]
      · exact fun h => ⟨kind, inner, rfl, hinner, h⟩
    rw [if_neg (by simp), if_pos hwrapped, wrapped_inner kind hinner, hvalue]
    dsimp only
    rw [nonempty_eq_some]
    refine and_congr_right fun _ => (or_iff_left ?_).symm
    rintro ⟨rfl, hplain⟩
    exact hplain hwrapped
  · rw [if_neg hwrapped, nonempty_eq_some]
    refine and_congr_right fun _ => ?_
    constructor
    · rintro rfl
      exact .inr ⟨rfl, hwrapped⟩
    · rintro (⟨kind, inner, rfl, -, -⟩ | ⟨rfl, -⟩)
      · exact absurd (wrapped_ends kind inner) hwrapped
      · rfl

theorem extractStringValue_eq_some {line v : Str} :
    extractStringValue line = some v ↔ Shows line v := by
  simp only [extractStringValue, Option.bind_eq_some_iff, findAfter_eq_some, unwrap_eq_some, Shows]
  constructor
  · rintro ⟨rest, ⟨name, hat⟩, hwraps⟩
    exact ⟨name, rest, hat, hwraps⟩
  · rintro ⟨name, rest, hat, hwraps⟩
    exact ⟨rest, ⟨name, hat⟩, hwraps⟩

/-- The first `pkg=` of the line stands in front of the word. -/
def Names (line package : Str) : Prop :=
  package ≠ [] ∧ ∃ before rest, FirstAt pkgMark line before rest ∧
    rest.takeWhile (!isWhitespace ·) = package

theorem packageIn_eq_some {line package : Str} : packageIn line = some package ↔ Names line package := by
  simp only [packageIn, Option.bind_eq_some_iff, findAfter_eq_some, nonempty_eq_some, Names]
  constructor
  · rintro ⟨rest, ⟨before, hat⟩, hne, hword⟩
    exact ⟨hne, before, rest, hat, hword⟩
  · rintro ⟨hne, before, rest, hat, hword⟩
    exact ⟨rest, ⟨before, hat⟩, hne, hword⟩

/-- The line has the mark of the title and shows one. -/
def Titles (line title : Str) : Prop := titleMark <:+: line ∧ Shows line title

/-- The line has a mark of the body and shows one. -/
def Bodies (line body : Str) : Prop :=
  (textMark <:+: line ∨ bigTextMark <:+: line) ∧ Shows line body

def titleIn (line : Str) : Option Str :=
  if titleMark <:+: line then extractStringValue line else none

def bodyIn (line : Str) : Option Str :=
  if textMark <:+: line ∨ bigTextMark <:+: line then extractStringValue line else none

theorem titleIn_eq_some {line title : Str} : titleIn line = some title ↔ Titles line title := by
  rw [titleIn, Option.ite_none_right_eq_some, extractStringValue_eq_some, Titles]

theorem bodyIn_eq_some {line body : Str} : bodyIn line = some body ↔ Bodies line body := by
  rw [bodyIn, Option.ite_none_right_eq_some, extractStringValue_eq_some, Bodies]

/-- The lines that are not tried for the title: those without its mark, and all behind the
first one that shows it. -/
def besideTitle : List Str → List Str
  | [] => []
  | line :: ls =>
    if titleMark <:+: line then
      if (extractStringValue line).isSome then ls else besideTitle ls
    else line :: besideTitle ls

/-- Once the title is known every line is tried for the body. -/
theorem read_titled (ls : List Str) (pkg body : Option Str) (title : Str) :
    ls.foldl Detail.read ⟨pkg, some title, body⟩ =
      ⟨pkg.or ((ls.map trim).findSome? packageIn), some title,
        body.or ((ls.map trim).findSome? bodyIn)⟩ := by
  induction ls generalizing pkg body with
  | nil => simp
  | cons line ls ih =>
    have hstep : Detail.read ⟨pkg, some title, body⟩ line =
        ⟨pkg.or (packageIn (trim line)), some title, body.or (bodyIn (trim line))⟩ := by
      by_cases htext : textMark <:+: trim line <;> by_cases hbig : bigTextMark <:+: trim line <;>
        cases pkg <;> cases body <;> simp [Detail.read, bodyIn, htext, hbig]
    rw [List.foldl_cons, hstep, ih, List.map_cons, List.findSome?_cons, List.findSome?_cons]
    cases pkg <;> cases body <;> cases packageIn (trim line) <;> cases bodyIn (trim line) <;> rfl

theorem read_untitled (ls : List Str) (pkg body : Option Str) :
    ls.foldl Detail.read ⟨pkg, none, body⟩ =
      ⟨pkg.or ((ls.map trim).findSome? packageIn), (ls.map trim).findSome? titleIn,
        body.or ((besideTitle (ls.map trim)).findSome? bodyIn)⟩ := by
  induction ls generalizing pkg body with
  | nil => simp [besideTitle]
  | cons line ls ih =>
    rw [List.foldl_cons, List.map_cons, List.findSome?_cons, List.findSome?_cons, besideTitle]
    by_cases hmark : titleMark <:+: trim line
    · have hstep : Detail.read ⟨pkg, none, body⟩ line =
          ⟨pkg.or (packageIn (trim line)), extractStringValue (trim line), body⟩ := by
        cases pkg <;> simp [Detail.read, hmark]
      rw [hstep, if_pos hmark, titleIn, if_pos hmark]
      cases hvalue : extractStringValue (trim line) with
      | none =>
        rw [ih]
        cases pkg <;> cases packageIn (trim line) <;> rfl
      | some title =>
        rw [read_titled]
        cases pkg <;> cases packageIn (trim line) <;> rfl
    · have hstep : Detail.read ⟨pkg, none, body⟩ line =
          ⟨pkg.or (packageIn (trim line)), none, body.or (bodyIn (trim line))⟩ := by
        by_cases htext : textMark <:+: trim line <;> by_cases hbig : bigTextMark <:+: trim line <;>
          cases pkg <;> cases body <;> simp [Detail.read, bodyIn, hmark, htext, hbig]
      rw [hstep, ih, if_neg hmark, titleIn, if_neg hmark, List.findSome?_cons]
      cases pkg <;> cases body <;> cases packageIn (trim line) <;> cases bodyIn (trim line) <;> rfl

/-- What the loop over the lines comes to. -/
theorem parseNotificationDetail_eq (output key : Str) :
    parseNotificationDetail output key =
      (((lines output).map trim).findSome? packageIn).map fun package =>
        ⟨key, package, ((lines output).map trim).findSome? titleIn,
          (besideTitle ((lines output).map trim)).findSome? bodyIn, []⟩ := by
  simp [parseNotificationDetail, read_untitled]

end Kulua.Notification
