import MarkupMetrics.Dom.Element
import MarkupMetrics.Html.Token

/-
  This file gives names in drawings and formulas the spelling
  they have there.

  Key definitions include:
    * `svgTagName`
    * `svgAttrNames`
    * `foreignAttrName`
    * `foreignAttrs`
-/

namespace MarkupMetrics

namespace Html

open Dom

------------------------------------------------------------
-- Spellings
------------------------------------------------------------

/- Element names of drawings with capital letters. -/
def svgTagNames : List String :=
  ["altGlyph", "altGlyphDef", "altGlyphItem", "animateColor",
    "animateMotion", "animateTransform", "clipPath", "feBlend",
    "feColorMatrix", "feComponentTransfer", "feComposite",
    "feConvolveMatrix", "feDiffuseLighting", "feDisplacementMap",
    "feDistantLight", "feDropShadow", "feFlood", "feFuncA",
    "feFuncB", "feFuncG", "feFuncR", "feGaussianBlur", "feImage",
    "feMerge", "feMergeNode", "feMorphology", "feOffset",
    "fePointLight", "feSpecularLighting", "feSpotLight", "feTile",
    "feTurbulence", "foreignObject", "glyphRef", "linearGradient",
    "radialGradient", "textPath"]

/- Attribute names of drawings with capital letters. -/
def svgAttrNames : List String :=
  ["attributeName", "attributeType", "baseFrequency",
    "baseProfile", "calcMode", "clipPathUnits",
    "diffuseConstant", "edgeMode", "filterUnits", "glyphRef",
    "gradientTransform", "gradientUnits", "kernelMatrix",
    "kernelUnitLength", "keyPoints", "keySplines", "keyTimes",
    "lengthAdjust", "limitingConeAngle", "markerHeight",
    "markerUnits", "markerWidth", "maskContentUnits", "maskUnits",
    "numOctaves", "pathLength", "patternContentUnits",
    "patternTransform", "patternUnits", "pointsAtX", "pointsAtY",
    "pointsAtZ", "preserveAlpha", "preserveAspectRatio",
    "primitiveUnits", "refX", "refY", "repeatCount", "repeatDur",
    "requiredExtensions", "requiredFeatures",
    "specularConstant", "specularExponent", "spreadMethod",
    "startOffset", "stdDeviation", "stitchTiles", "surfaceScale",
    "systemLanguage", "tableValues", "targetX", "targetY",
    "textLength", "viewBox", "viewTarget", "xChannelSelector",
    "yChannelSelector", "zoomAndPan"]

/- The spelling of a lower-case name in a list of spellings. -/
def respell
    (spellings : List String)
    (name : String) : String :=
  match spellings.find? fun s =>
      s.toList.map Char.toLower = name.toList with
  | some s => s
  | none => name

/- The name of an element of a drawing. -/
def svgTagName
    (name : String) : String :=
  respell svgTagNames name

/- The name of an attribute in a foreign namespace. -/
def foreignAttrName
    (space : Namespace)
    (name : String) : QualName :=
  let spelled :=
    match space with
    | .svg => respell svgAttrNames name
    | .mathml =>
        if name = "definitionurl" then "definitionURL" else name
    | _ => name
  match spelled with
  | "xlink:actuate" => ⟨some "xlink", .xlink, "actuate"⟩
  | "xlink:arcrole" => ⟨some "xlink", .xlink, "arcrole"⟩
  | "xlink:href" => ⟨some "xlink", .xlink, "href"⟩
  | "xlink:role" => ⟨some "xlink", .xlink, "role"⟩
  | "xlink:show" => ⟨some "xlink", .xlink, "show"⟩
  | "xlink:title" => ⟨some "xlink", .xlink, "title"⟩
  | "xlink:type" => ⟨some "xlink", .xlink, "type"⟩
  | "xml:lang" => ⟨some "xml", .xml, "lang"⟩
  | "xml:space" => ⟨some "xml", .xml, "space"⟩
  | "xmlns" => ⟨none, .xmlns, "xmlns"⟩
  | "xmlns:xlink" => ⟨some "xmlns", .xmlns, "xlink"⟩
  | name => .plain name

------------------------------------------------------------
-- Attributes
------------------------------------------------------------

/- The attributes of a tag in a foreign namespace. -/
def foreignAttrs
    (space : Namespace)
    (t : Tag) : List Attribute :=
  t.attrs.map fun a => ⟨foreignAttrName space a.1, a.2⟩

end Html

end MarkupMetrics
