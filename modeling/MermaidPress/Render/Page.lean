/-
The page that a diagram is rendered on, and what is asked of it. The page loads the script,
shows the diagram in one container and says through two flags how that went. The script's
address and the diagram are written into the page with the four characters that markup
gives a meaning escaped, so neither can end the place it stands in.
-/
import MermaidPress.Text.Basic

namespace MermaidPress.Page

/-- True once the page and its scripts are loaded. -/
def documentReady : Text := "document.readyState === 'complete'".toList

/-- True once the diagram is rendered or has failed. -/
def renderSettled : Text := "Boolean(window.renderComplete || window.renderError)".toList

/-- The failure of the diagram, or nothing. -/
def renderFailure : Text := "window.renderError".toList

/-- True once the container shows the image in place of the source. -/
def diagramProcessed : Text :=
  "document.querySelector('.mermaid[data-processed=\"true\"]') !== null".toList

/-- The container of the diagram. -/
def diagramSelector : Text := "#diagram".toList

/-- A character as it stands in markup. -/
def escapeChar : Char → Text
  | '&' => "&amp;".toList
  | '<' => "&lt;".toList
  | '>' => "&gt;".toList
  | '"' => "&quot;".toList
  | c => [c]

/-- A text as it stands in markup. -/
def escape (t : Text) : Text := t.flatMap escapeChar

/-- Lines, each with its break. -/
def joinLines (lines : List String) : Text := lines.flatMap fun line => line.toList ++ ['\n']

/-- The page up to the script's address. -/
def head : Text :=
  joinLines [
    "<!DOCTYPE html>",
    "<html>",
    "  <head>",
    "    <meta charset=\"utf-8\">"] ++
  "    <script src=\"".toList

/-- The page between the script's address and the diagram. -/
def middle : Text :=
  joinLines [
    "\"></script>",
    "    <script>",
    "      window.renderComplete = false;",
    "      window.renderError = null;",
    "",
    "      mermaid.initialize(\x7b",
    "        startOnLoad: false,",
    "        theme: 'default',",
    "        themeVariables: \x7b",
    "          primaryColor: '#fff',",
    "          primaryTextColor: '#000',",
    "          primaryBorderColor: '#000',",
    "          lineColor: '#000',",
    "          secondaryColor: '#f5f5f5',",
    "          tertiaryColor: '#f0f0f0'",
    "        \x7d,",
    "        securityLevel: 'loose'",
    "      \x7d);",
    "",
    "      window.addEventListener('load', async () => \x7b",
    "        try \x7b",
    "          await mermaid.run();",
    "          window.renderComplete = true;",
    "        \x7d catch (error) \x7b",
    "          window.renderError = (error && error.message) || 'Unknown error';",
    "          console.error('Mermaid render error:', error);",
    "        \x7d",
    "      \x7d);",
    "    </script>",
    "    <style>",
    "      body \x7b",
    "        margin: 0;",
    "        padding: 20px;",
    "        background: white;",
    "        display: flex;",
    "        justify-content: center;",
    "        align-items: center;",
    "        min-height: 100vh;",
    "      \x7d",
    "      #diagram \x7b",
    "        background: white;",
    "        max-width: 2000px;",
    "        max-height: 2000px;",
    "      \x7d",
    "    </style>",
    "  </head>",
    "  <body>",
    "    <div id=\"diagram\" class=\"mermaid\">"]

/-- The page behind the diagram. -/
def foot : Text :=
  joinLines [
    "",
    "    </div>",
    "  </body>",
    "</html>"]

/-- The page for a diagram source. -/
def shell (source script : Text) : Text :=
  head ++ escape script ++ middle ++ escape source ++ foot

end MermaidPress.Page
