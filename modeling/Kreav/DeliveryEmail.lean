import Kreav.Lib.Html

/-!
# The delivery e-mail

`escapeHtml` replaces four characters, one pass after the other. `&` is the first, so that no
pass meets the reference of an earlier one, and together they are one substitution, which the
four references read back.

`buildEmail` puts three escaped texts in a fixed text. `email` is the document it renders, with
the texts as they were given, and `tokenize_buildEmail` says that its tokens are what is read
from the e-mail.
-/

open Substitution Html

namespace Kreav

namespace DeliveryEmail

/-- `s.replace(/c/g, r)`. -/
def replace (s : String) (c : Char) (r : String) : String :=
  String.ofList (replaceAll c r.toList s.toList)

/-- Escape user/product-controlled strings before interpolating into HTML. -/
def escapeHtml (s : String) : String :=
  replace (replace (replace (replace s
    '&' "&amp;")
    '<' "&lt;")
    '>' "&gt;")
    '"' "&quot;"

/-- Minimal, inline-styled delivery email (no external assets). -/
def buildEmail (title fileUrl explorerUrl : String) : String :=
  String.join [
    "<div style=\"font-family:system-ui,sans-serif;max-width:520px;margin:0 auto\">",
    "<h2 style=\"margin:0 0 12px\">Your purchase is ready 🎉</h2>",
    "<p style=\"margin:0 0 16px;color:#444\">Thanks for buying <strong>" ++ escapeHtml title ++
      "</strong> on Kreav. Your download link:</p>",
    "<p style=\"margin:0 0 20px\"><a href=\"" ++ escapeHtml fileUrl ++
      "\" style=\"background:#FFE600;color:#0A0A0A;padding:12px 20px;border-radius:8px;" ++
      "text-decoration:none;font-weight:700\">Download your product</a></p>",
    "<p style=\"margin:0 0 8px;color:#666;font-size:13px\">Or paste this link: " ++
      escapeHtml fileUrl ++ "</p>",
    "<p style=\"margin:16px 0 0;color:#888;font-size:12px\">Settled on Stellar — <a href=\"" ++
      escapeHtml explorerUrl ++ "\" style=\"color:#888\">view the transaction</a>.</p>",
    "</div>"]

/-- The references that `escapeHtml` writes. -/
def entities : References Char :=
  [("amp;".toList, '&'), ("lt;".toList, '<'), ("gt;".toList, '>'), ("quot;".toList, '"')]

/-- The passes of `escapeHtml`. -/
def escapes : List (Char × List Char) :=
  entities.map fun r => (r.2, '&' :: r.1)

/-- An opening tag with a `style`. -/
def styled (name style : String) : Tag :=
  .opening name [("style", style)]

/-- A link with a `style`. -/
def link (href style : String) : Tag :=
  .opening "a" [("href", href), ("style", style)]

/-- The document of the e-mail, with its three texts. -/
def email (title fileUrl explorerUrl : String) : Document where
  lead := ""
  body := [
    (styled "div" "font-family:system-ui,sans-serif;max-width:520px;margin:0 auto", ""),
    (styled "h2" "margin:0 0 12px", "Your purchase is ready 🎉"),
    (.closing "h2", ""),
    (styled "p" "margin:0 0 16px;color:#444", "Thanks for buying "),
    (.opening "strong" [], title),
    (.closing "strong", " on Kreav. Your download link:"),
    (.closing "p", ""),
    (styled "p" "margin:0 0 20px", ""),
    (link fileUrl ("background:#FFE600;color:#0A0A0A;padding:12px 20px;border-radius:8px;" ++
      "text-decoration:none;font-weight:700"), "Download your product"),
    (.closing "a", ""),
    (.closing "p", ""),
    (styled "p" "margin:0 0 8px;color:#666;font-size:13px", "Or paste this link: " ++ fileUrl),
    (.closing "p", ""),
    (styled "p" "margin:16px 0 0;color:#888;font-size:12px", "Settled on Stellar — "),
    (link explorerUrl "color:#888", "view the transaction"),
    (.closing "a", "."),
    (.closing "p", ""),
    (.closing "div", "")]

/-! ## One escaped text -/

theorem escapeHtml_toList (s : String) :
    (escapeHtml s).toList = substitute escapes s.toList := by
  have hfresh : Fresh escapes := by decide
  rw [← passes_eq_substitute hfresh]
  simp [escapeHtml, replace, escapes, entities, passes]

example : escapeHtml "a<b & \"c\" &lt;" = "a&lt;b &amp; &quot;c&quot; &amp;lt;" := by decide

theorem names_entities : ∀ r ∈ entities, Names entities r.1 r.2 := by
  intro r hr s
  simp only [entities, List.mem_cons, List.not_mem_nil, or_false] at hr
  rcases hr with rfl | rfl | rfl | rfl <;> simp [entities]

theorem escapes_entities : Escapes '&' entities escapes where
  name p hp := by
    obtain ⟨r, hr, rfl⟩ := List.mem_map.1 hp
    have hesc : ∀ r ∈ entities, '&' ∉ r.1 := by decide
    exact ⟨r.1, rfl, hesc r hr, names_entities r hr⟩
  self := ⟨('&', '&' :: "amp;".toList), List.mem_cons_self, rfl⟩

theorem not_mem_escapeHtml {c : Char} (hc : c ∈ ['<', '>', '"']) (s : String) :
    c ∉ (escapeHtml s).toList := by
  have hrepl : (∃ p ∈ escapes, p.1 = c) ∧ ∀ p ∈ escapes, c ∉ p.2 := by
    simp only [List.mem_cons, List.not_mem_nil, or_false] at hc
    rcases hc with rfl | rfl | rfl <;> simp [escapes, entities]
  rw [escapeHtml_toList]
  exact not_mem_substitute hrepl.1 hrepl.2

theorem starts_entity (s : String) {pre post : List Char}
    (h : (escapeHtml s).toList = pre ++ '&' :: post) : ∃ r ∈ entities, r.1 <+: post := by
  rw [escapeHtml_toList] at h
  exact escapes_entities.starts_reference h

/-- Behind a text without references an escaped text is read back. -/
theorem decodeText_append {pre : String} (h : '&' ∉ pre.toList) (s : String) :
    decodeText entities (pre ++ escapeHtml s) = pre ++ s := by
  rw [decodeText, String.toList_append, decode_append h, escapeHtml_toList,
    escapes_entities.decode_substitute, ← String.toList_append, String.ofList_toList]

theorem decodeText_escapeHtml (s : String) : decodeText entities (escapeHtml s) = s := by
  have happ : decodeText entities ("" ++ escapeHtml s) = "" ++ s := decodeText_append (by simp) s
  rwa [String.empty_append, String.empty_append] at happ

/-! ## The e-mail -/

theorem render_link (href style : String) :
    (link href style).render = "<a href=\"" ++ href ++ "\" style=\"" ++ style ++ "\">" := by
  rw [← String.toList_inj]
  simp [link, Tag.render, Tag.renderAttributes]

/-- The fixed text, line by line, is the tags of the document and the texts between them. -/
theorem buildEmail_eq (title fileUrl explorerUrl : String) :
    buildEmail title fileUrl explorerUrl =
      (email (escapeHtml title) (escapeHtml fileUrl) (escapeHtml explorerUrl)).render := by
  have hdiv : "<div style=\"font-family:system-ui,sans-serif;max-width:520px;margin:0 auto\">" =
    (styled "div" "font-family:system-ui,sans-serif;max-width:520px;margin:0 auto").render := rfl
  have hready : "<h2 style=\"margin:0 0 12px\">Your purchase is ready 🎉</h2>" =
    (styled "h2" "margin:0 0 12px").render ++ "Your purchase is ready 🎉" ++
      (Tag.closing "h2").render := rfl
  have hthanks : "<p style=\"margin:0 0 16px;color:#444\">Thanks for buying <strong>" =
    (styled "p" "margin:0 0 16px;color:#444").render ++ "Thanks for buying " ++
      (Tag.opening "strong" []).render := rfl
  have hdownload : "</strong> on Kreav. Your download link:</p>" =
    (Tag.closing "strong").render ++ " on Kreav. Your download link:" ++
      (Tag.closing "p").render := rfl
  have hlink : "<p style=\"margin:0 0 20px\"><a href=\"" =
    (styled "p" "margin:0 0 20px").render ++ "<a href=\"" := rfl
  have hstyle :
    "\" style=\"background:#FFE600;color:#0A0A0A;padding:12px 20px;border-radius:8px;" =
    "\" style=\"" ++ "background:#FFE600;color:#0A0A0A;padding:12px 20px;border-radius:8px;" := rfl
  have hproduct : "text-decoration:none;font-weight:700\">Download your product</a></p>" =
    "text-decoration:none;font-weight:700" ++ "\">" ++ "Download your product" ++
      (Tag.closing "a").render ++ (Tag.closing "p").render := rfl
  have hpaste : "<p style=\"margin:0 0 8px;color:#666;font-size:13px\">Or paste this link: " =
    (styled "p" "margin:0 0 8px;color:#666;font-size:13px").render ++
      "Or paste this link: " := rfl
  have hsettled :
    "<p style=\"margin:16px 0 0;color:#888;font-size:12px\">Settled on Stellar — <a href=\"" =
    (styled "p" "margin:16px 0 0;color:#888;font-size:12px").render ++ "Settled on Stellar — " ++
      "<a href=\"" := rfl
  have hview : "\" style=\"color:#888\">view the transaction</a>.</p>" =
    "\" style=\"" ++ "color:#888" ++ "\">" ++ "view the transaction" ++
      (Tag.closing "a").render ++ "." ++ (Tag.closing "p").render := rfl
  have hp : "</p>" = (Tag.closing "p").render := rfl
  have hend : "</div>" = (Tag.closing "div").render := rfl
  rw [buildEmail, hdiv, hready, hthanks, hdownload, hlink, hstyle, hproduct, hpaste, hp, hsettled,
    hview, hend]
  simp [-String.reduceAppend, email, Document.render, render_link, String.append_assoc]

/-- A literal is read character by character. -/
theorem not_mem_literal {c : Char} {l : List Char} (h : c ∉ l := by decide) :
    c ∉ (String.ofList l).toList := by
  rwa [String.toList_ofList]

section
variable {name style href text : String}

theorem wellFormed_styled (hstyle : '"' ∉ style.toList) (htext : '<' ∉ text.toList)
    (hname : IsName name := by decide) :
    (styled name style).WellFormed ∧ '<' ∉ text.toList :=
  ⟨⟨hname, by simp, by simpa using ⟨by decide, hstyle⟩⟩, htext⟩

theorem wellFormed_link (hhref : '"' ∉ href.toList) (hstyle : '"' ∉ style.toList)
    (htext : '<' ∉ text.toList) : (link href style).WellFormed ∧ '<' ∉ text.toList :=
  ⟨⟨by decide, by simp, by simpa using ⟨⟨by decide, hhref⟩, by decide, hstyle⟩⟩, htext⟩

theorem wellFormed_closing (htext : '<' ∉ text.toList) (hname : IsName name := by decide) :
    (Tag.closing name).WellFormed ∧ '<' ∉ text.toList :=
  ⟨hname, htext⟩

end

theorem not_mem_append {c : Char} {s t : String} (hs : c ∉ s.toList) (ht : c ∉ t.toList) :
    c ∉ (s ++ t).toList := by
  rw [String.toList_append]
  exact List.not_mem_append hs ht

/-- The fixed tags and texts need no escaping. -/
theorem wellFormed_email {title fileUrl explorerUrl : String} (ht : '<' ∉ title.toList)
    (hf : '<' ∉ fileUrl.toList) (hfq : '"' ∉ fileUrl.toList) (heq : '"' ∉ explorerUrl.toList) :
    (email title fileUrl explorerUrl).WellFormed where
  lead := not_mem_literal
  body := by
    simp only [email, List.forall_mem_cons]
    exact ⟨wellFormed_styled not_mem_literal not_mem_literal,
      wellFormed_styled not_mem_literal not_mem_literal,
      wellFormed_closing not_mem_literal,
      wellFormed_styled not_mem_literal not_mem_literal,
      ⟨⟨by decide, by simp, by simp⟩, ht⟩,
      wellFormed_closing not_mem_literal,
      wellFormed_closing not_mem_literal,
      wellFormed_styled not_mem_literal not_mem_literal,
      wellFormed_link hfq (not_mem_append not_mem_literal not_mem_literal) not_mem_literal,
      wellFormed_closing not_mem_literal,
      wellFormed_closing not_mem_literal,
      wellFormed_styled not_mem_literal (not_mem_append not_mem_literal hf),
      wellFormed_closing not_mem_literal,
      wellFormed_styled not_mem_literal not_mem_literal,
      wellFormed_link heq not_mem_literal not_mem_literal,
      wellFormed_closing not_mem_literal,
      wellFormed_closing not_mem_literal,
      wellFormed_closing not_mem_literal,
      by simp⟩

theorem decodeText_eq_self {s : String} (h : '&' ∉ s.toList) : decodeText entities s = s := by
  rw [decodeText, decode_eq_self h, String.ofList_toList]

/-- No reference is in the fixed tags and texts. -/
theorem decode_email (title fileUrl explorerUrl : String) :
    (email (escapeHtml title) (escapeHtml fileUrl) (escapeHtml explorerUrl)).decode entities =
      email title fileUrl explorerUrl := by
  have hbutton : '&' ∉ ("background:#FFE600;color:#0A0A0A;padding:12px 20px;border-radius:8px;" ++
      "text-decoration:none;font-weight:700").toList :=
    not_mem_append not_mem_literal not_mem_literal
  simp (disch := first | exact not_mem_literal | exact hbutton) only [email, Document.decode,
    Tag.decode, styled, link, List.map_cons, List.map_nil, decodeText_eq_self,
    decodeText_escapeHtml, decodeText_append]

theorem tokenize_buildEmail (title fileUrl explorerUrl : String) :
    tokenize entities (buildEmail title fileUrl explorerUrl) =
      some (email title fileUrl explorerUrl).tokens := by
  rw [buildEmail_eq, tokenize_render, decode_email]
  exact wellFormed_email (not_mem_escapeHtml (by simp) _) (not_mem_escapeHtml (by simp) _)
    (not_mem_escapeHtml (by simp) _) (not_mem_escapeHtml (by simp) _)

theorem outline_buildEmail (title fileUrl explorerUrl : String) :
    (tokenize entities (buildEmail title fileUrl explorerUrl)).map outline =
      some ((email "" "" "").body.map fun p => p.1.outline) := by
  rw [tokenize_buildEmail, Option.map_some, outline_tokens]
  rfl

/-- An escaped text holds no tag and no quote, and is read back from its references. So the e-mail
has the tags and the attributes of its fixed text, whatever the three texts are, and each of
them is read as it was given. -/
theorem escaped_email :
    (∀ s, (∀ c ∈ ['<', '>', '"'], c ∉ (escapeHtml s).toList) ∧
      (∀ pre post, (escapeHtml s).toList = pre ++ '&' :: post → ∃ r ∈ entities, r.1 <+: post) ∧
      decodeText entities (escapeHtml s) = s) ∧
    ∀ title fileUrl explorerUrl,
      tokenize entities (buildEmail title fileUrl explorerUrl) =
        some (email title fileUrl explorerUrl).tokens ∧
      ∀ title' fileUrl' explorerUrl',
        (tokenize entities (buildEmail title fileUrl explorerUrl)).map outline =
          (tokenize entities (buildEmail title' fileUrl' explorerUrl')).map outline := by
  refine ⟨fun s => ⟨fun c hc => not_mem_escapeHtml hc s, fun pre post => starts_entity s,
    decodeText_escapeHtml s⟩, fun title fileUrl explorerUrl =>
    ⟨tokenize_buildEmail title fileUrl explorerUrl, fun title' fileUrl' explorerUrl' => ?_⟩⟩
  rw [outline_buildEmail, outline_buildEmail]

end DeliveryEmail

end Kreav
