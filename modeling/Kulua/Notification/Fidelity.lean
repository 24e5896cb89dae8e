import Kulua.Notification.Detail

/-! When the package, the title and the body that `parse_notification_detail` reads are those
of the notification. A value is cut out behind the last bracket that opens, so a bracket in
the value itself cuts it short. -/

namespace Kulua.Notification
open Foundation.Text

/-- A value of the extras as it is printed. -/
def stringLine (mark v : Str) : Str := mark ++ ("String (".toList ++ v ++ [')'])

def titleLine (title : Str) : Str := stringLine titleMark title
def textLine (body : Str) : Str := stringLine textMark body

theorem findAfter_equals {name : Str} (h : '=' ∉ name) (rest : Str) :
    findAfter ['='] (name ++ '=' :: rest) = some rest := by
  induction name with
  | nil => simp [findAfter]
  | cons c name ih =>
    have hne : '=' ≠ c := fun he => h (he ▸ List.mem_cons_self ..)
    rw [List.cons_append, findAfter, if_neg (by simpa using hne),
      ih fun hmem => h (List.mem_cons_of_mem c hmem)]

theorem trim_wrapped (v : Str) :
    trim ("String (".toList ++ v ++ [')']) = "String (".toList ++ v ++ [')'] := by
  have hend : trimEnd ("String (".toList ++ v ++ [')']) = "String (".toList ++ v ++ [')'] := by
    refine trimEnd_eq_self fun hs => ?_
    rw [List.getLast_concat]
    decide
  rw [trim, hend]
  exact List.dropWhile_cons_of_neg (by decide)

theorem shows_stringLine (name : Str) (h : '=' ∉ name) (v w : Str) :
    Shows (stringLine (name ++ ['=']) v) w ↔ Wraps ("String (".toList ++ v ++ [')']) w := by
  rw [← extractStringValue_eq_some, extractStringValue, stringLine, List.append_assoc,
    List.singleton_append, findAfter_equals h, Option.bind_some, trim_wrapped, unwrap_eq_some]

theorem trim_subset (s : Str) : trim s ⊆ s :=
  List.Subset.trans (List.dropWhile_sublist _).subset (List.rdropWhile_prefix _ s).subset

/-- What stands in brackets is cut behind the last one that opens. -/
theorem Wraps.bracketless {v w : Str} (h : Wraps ("String (".toList ++ v ++ [')']) w) :
    '(' ∉ w := by
  obtain ⟨-, ⟨kind, inner, -, hinner, rfl⟩ | ⟨rfl, hplain⟩⟩ := h
  · exact fun hin => hinner (trim_subset inner hin)
  · refine absurd ⟨List.getLast?_concat, ?_⟩ hplain
    simp

theorem wraps_iff {v : Str} (hne : v ≠ []) (htrim : trim v = v) :
    Wraps ("String (".toList ++ v ++ [')']) v ↔ '(' ∉ v := by
  constructor
  · exact Wraps.bracketless
  · intro h
    exact ⟨hne, .inl ⟨"String ".toList, v, by simp, h, htrim⟩⟩

theorem shows_titleLine (v w : Str) :
    Shows (titleLine v) w ↔ Wraps ("String (".toList ++ v ++ [')']) w :=
  shows_stringLine "android.title".toList (by decide) v w

theorem shows_textLine (v w : Str) :
    Shows (textLine v) w ↔ Wraps ("String (".toList ++ v ++ [')']) w :=
  shows_stringLine "android.text".toList (by decide) v w

/-- The output that carries the texts: the first line names the package, and the lines of
the title and the body stand somewhere below. -/
structure Dump (output package title body : Str) : Prop where
  named : package ≠ [] ∧ ∀ c ∈ package, isWhitespace c = false
  titled : title ≠ [] ∧ trim title = title ∧ '\n' ∉ title
  bodied : body ≠ [] ∧ trim body = body ∧ '\n' ∉ body
  first : ∃ before space after, isWhitespace space = true ∧
    output.takeWhile (· ≠ '\n') ++ ['\n'] = before ++ pkgMark ++ package ++ space :: after
  title : titleLine title ∈ (lines output).map trim
  body : textLine body ∈ (lines output).map trim

def Unmarked (line : Str) : Prop :=
  ¬titleMark <:+: line ∧ ¬textMark <:+: line ∧ ¬bigTextMark <:+: line

/-- The lines of a dump in which nothing but the two values can be taken for a value. -/
structure Plain (ls : List Str) (package title body : Str) : Prop where
  titled : title ≠ [] ∧ trim title = title
  bodied : body ≠ [] ∧ trim body = body
  shape : ∃ first before between after,
    ls = first :: before ++ titleLine title :: (between ++ textLine body :: after) ∧
      Names first package ∧ ∀ line ∈ first :: before ++ between ++ after, Unmarked line

theorem besideTitle_sublist (ls : List Str) : (besideTitle ls).Sublist ls := by
  induction ls with
  | nil => exact List.Sublist.refl _
  | cons line ls ih =>
    rw [besideTitle]
    split
    · split
      · exact List.sublist_cons_self line ls
      · exact ih.cons line
    · exact ih.cons_cons line

theorem besideTitle_titled {before after : List Str} {line title : Str}
    (hbefore : ∀ l ∈ before, ¬titleMark <:+: l) (h : Titles line title) :
    besideTitle (before ++ line :: after) = before ++ after := by
  induction before with
  | nil =>
    have hvalue : (extractStringValue line).isSome = true :=
      Option.isSome_iff_exists.mpr ⟨title, extractStringValue_eq_some.mpr h.2⟩
    rw [List.nil_append, besideTitle, if_pos h.1, if_pos hvalue, List.nil_append]
  | cons l before ih =>
    rw [List.cons_append, besideTitle, if_neg (hbefore l (List.mem_cons_self ..)),
      ih fun l hl => hbefore l (List.mem_cons_of_mem _ hl), List.cons_append]

/-- Every value that a plain dump shows stood in brackets. -/
theorem Plain.bracketless {ls : List Str} {package title body line v : Str}
    (h : Plain ls package title body) (hline : line ∈ ls) (hmarked : ¬Unmarked line)
    (hshows : Shows line v) : '(' ∉ v := by
  obtain ⟨first, before, between, after, rfl, -, hplain⟩ := h.shape
  have hcases : line = titleLine title ∨ line = textLine body ∨
      line ∈ first :: before ++ between ++ after := by
    simp only [List.mem_append, List.mem_cons] at hline ⊢
    tauto
  rcases hcases with rfl | rfl | hmem
  · exact ((shows_titleLine title v).mp hshows).bracketless
  · exact ((shows_textLine body v).mp hshows).bracketless
  · exact absurd (hplain line hmem) hmarked

theorem stringLine_marked (mark v : Str) : mark <:+: stringLine mark v :=
  (List.prefix_append _ _).isInfix

theorem parseNotificationDetail_iff (output key package title body : Str) :
    parseNotificationDetail output key = some ⟨key, package, some title, some body, []⟩ ↔
      FirstLine Names ((lines output).map trim) package ∧
        FirstLine Titles ((lines output).map trim) title ∧
          FirstLine Bodies (besideTitle ((lines output).map trim)) body := by
  rw [parseNotificationDetail_eq, Option.map_eq_some_iff,
    ← findSome?_eq_firstLine (fun _ _ => packageIn_eq_some),
    ← findSome?_eq_firstLine (fun _ _ => titleIn_eq_some),
    ← findSome?_eq_firstLine (fun _ _ => bodyIn_eq_some)]
  constructor
  · rintro ⟨p, hp, hsame⟩
    injection hsame with _ hpackage htitle hbody _
    exact ⟨hpackage ▸ hp, htitle, hbody⟩
  · rintro ⟨hp, htitle, hbody⟩
    exact ⟨package, hp, by rw [htitle, hbody]⟩

theorem Plain.read_iff {ls : List Str} {package title body : Str}
    (h : Plain ls package title body) :
    (FirstLine Names ls package ∧ FirstLine Titles ls title ∧
      FirstLine Bodies (besideTitle ls) body) ↔ '(' ∉ title ∧ '(' ∉ body := by
  constructor
  · rintro ⟨-, ⟨before, line, after, hls, ⟨hmark, hshows⟩, -⟩,
      before', line', after', hls', ⟨hmark', hshows'⟩, -⟩
    constructor
    · exact h.bracketless (by simp [hls]) (fun hplain => hplain.1 hmark) hshows
    · refine h.bracketless ((besideTitle_sublist ls).subset (by simp [hls'])) ?_ hshows'
      rintro ⟨-, htext, hbig⟩
      exact hmark'.elim htext hbig
  · rintro ⟨htitle, hbody⟩
    obtain ⟨first, before, between, after, rfl, hnames, hplain⟩ := h.shape
    have htitled : Titles (titleLine title) title :=
      ⟨stringLine_marked _ _, (shows_titleLine _ _).mpr ((wraps_iff h.titled.1 h.titled.2).mpr htitle)⟩
    have hbodied : Bodies (textLine body) body :=
      ⟨.inl (stringLine_marked _ _),
        (shows_textLine _ _).mpr ((wraps_iff h.bodied.1 h.bodied.2).mpr hbody)⟩
    have hfront : ∀ l ∈ first :: before, ¬titleMark <:+: l := fun l hl =>
      (hplain l (by simp only [List.mem_append]; exact .inl (.inl hl))).1
    refine ⟨⟨[], first, _, by rw [List.cons_append, List.nil_append], hnames, by simp⟩,
      ⟨first :: before, titleLine title, _, rfl, htitled, fun l hl w hw => hfront l hl hw.1⟩, ?_⟩
    rw [besideTitle_titled hfront htitled]
    refine ⟨first :: before ++ between, textLine body, after, by rw [List.append_assoc], hbodied, ?_⟩
    intro l hl w hw
    obtain ⟨-, htext, hbig⟩ := hplain l (List.mem_append_left _ hl)
    exact hw.1.elim htext hbig

/-- The parser reads the texts where the first line that shows each of them shows it whole;
where nothing else looks like a value, where they have no bracket that opens. -/
theorem notification_detail_exact_iff (output key package title body : Str) :
    (parseNotificationDetail output key = some ⟨key, package, some title, some body, []⟩ ↔
      FirstLine Names ((lines output).map trim) package ∧
        FirstLine Titles ((lines output).map trim) title ∧
          FirstLine Bodies (besideTitle ((lines output).map trim)) body) ∧
    (Plain ((lines output).map trim) package title body →
      (parseNotificationDetail output key = some ⟨key, package, some title, some body, []⟩ ↔
        '(' ∉ title ∧ '(' ∉ body)) :=
  ⟨parseNotificationDetail_iff output key package title body,
    fun hplain => (parseNotificationDetail_iff output key package title body).trans hplain.read_iff⟩

def plainDump : Str :=
  "x: pkg=p u\n android.title=String (a=b)\n android.text=String (now)\n".toList

theorem notification_detail_exact_iff_plain :
    Plain ((lines plainDump).map trim) "p".toList "a=b".toList "now".toList ∧
      parseNotificationDetail plainDump [] =
        some ⟨[], "p".toList, some "a=b".toList, some "now".toList, []⟩ := by
  have hplain : Plain ((lines plainDump).map trim) "p".toList "a=b".toList "now".toList :=
    ⟨by decide, by decide, "x: pkg=p u".toList, [], [], [], by decide,
      packageIn_eq_some.mp (by decide), by unfold Unmarked; decide⟩
  exact ⟨hplain, ((notification_detail_exact_iff plainDump [] _ _ _).2 hplain).mpr
    ⟨by decide, by decide⟩⟩

def bracketDump : Str :=
  "pkg=p \nandroid.title=String (Sale (50%))\nandroid.text=String (now)\n".toList

/-- A title with brackets comes back as what stands behind the last one that opens. -/
theorem bracketed_title_cut :
    ¬∀ output key package title body, Dump output package title body →
      parseNotificationDetail output key = some ⟨key, package, some title, some body, []⟩ := by
  intro h
  have hdump : Dump bracketDump "p".toList "Sale (50%)".toList "now".toList :=
    ⟨⟨by decide, List.forall_mem_singleton.mpr (by decide)⟩, by decide, by decide,
      ⟨[], ' ', ['\n'], by decide, by decide⟩, by decide, by decide⟩
  have hread : parseNotificationDetail bracketDump [] =
      some ⟨[], "p".toList, some "50%)".toList, some "now".toList, []⟩ := by decide
  have hsame := h bracketDump [] _ _ _ hdump
  rw [hread] at hsame
  exact absurd hsame (by decide)

end Kulua.Notification
