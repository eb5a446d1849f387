import EpFormat.Service.Response

/-!
# Page — the page of the service

One page holds the form, its styles and its script.  The version of the formatter stands in it.
-/
namespace EpFormat.Service

/-- The rows of the page up to the version. -/
def pageStart : List String :=
  ["",
   "<!DOCTYPE html>",
   "<html>",
   "<head>",
   "    <title>Mojolicious Template Code Formatter</title>",
   "    <style>",
   "        body \x7bfont-family:'Segoe UI', Arial, sans-serif; margin:0; padding:0;",
   "              background:linear-gradient(90deg,#fdeff9 0%,#ecb6ff 100%);",
   "              height:100vh; display:flex; flex-direction:column;\x7d",
   "        header \x7bbackground:#8247c2; color:#fff; display:flex; align-items:center;",
   "                justify-content:space-between; padding:1em;\x7d",
   "        header h1 \x7bmargin:0; font-size:1.6em;\x7d",
   "        .icon-links \x7bdisplay:flex; align-items:center;\x7d",
   "        .icon-links a \x7bdisplay:inline-flex; align-items:center; margin-left:16px; color:white;\x7d",
   "        .icon-links a svg \x7bwidth:28px; height:28px; fill:white;\x7d",
   "        .flash-messages ul \x7bmargin:0; padding:0; list-style:none; color:#d91454;text-align:center;\x7d",
   "        .flash-messages \x7bmin-height:20px;\x7d",
   "        form \x7bflex:1; display:flex; flex-direction:column;\x7d",
   "        .container \x7bdisplay:flex; flex-direction:row; gap:16px; padding:20px; flex:1;",
   "                    box-sizing:border-box; height:calc(100vh - 140px);\x7d",
   "        .panel \x7bbackground:#fff; border-radius:10px; box-shadow:0 8px 18px -7px #ac83ce44;",
   "                padding:22px; flex:1 1 50%; min-width:300px; display:flex; flex-direction:column; height:100%;\x7d",
   "        label \x7bfont-weight:bold; margin-bottom:5px;\x7d",
   "\t\t.controls \x7b",
   "\t\t\tdisplay: flex;",
   "\t\t\tjustify-content: space-between;  /* left group stays left, right goes right */",
   "\t\t\talign-items: center;",
   "\t\t\tmargin: 14px 0 8px 0;",
   "\t\t\x7d",
   "",
   "\t\t.controls-left, ",
   "\t\t.controls-right \x7b",
   "\t\t\tdisplay: flex;",
   "\t\t\tgap: 8px;",
   "\t\t\x7d",
   "\t\t.version-label \x7b",
   "\t\t\tfont-size: 0.8em;         /* smaller than title */",
   "\t\t\tfont-weight: normal;      /* keep normal weight */",
   "\t\t\tmargin-left: 8px;         /* space between title and version */",
   "\t\t\topacity: 0.8;             /* slightly subdued */",
   "\t\t\x7d",
   "\t\t",
   "\t\t.file-upload \x7b",
   "\t\t\tdisplay: flex;",
   "\t\t\talign-items: center;    /* perfect vertical centering */",
   "\t\t\tgap: 0.9rem;            /* nice spacing, tweak as needed */",
   "\t\t\tmargin-top: 18px;       /* whitespace above this row */",
   "\t\t\tmargin-bottom: 10px;    /* space below */",
   "\t\t\x7d",
   "",
   "\t\t.file-upload label \x7b",
   "\t\t\tmargin: 0;",
   "\t\t\tfont-weight: bold;",
   "\t\t\twhite-space: nowrap;",
   "\t\t\tline-height: 1.5;",
   "\t\t\t/* align baseline to button - fixes Chrome/Firefox difference */",
   "\t\t\tdisplay: flex;",
   "\t\t\talign-items: center;",
   "\t\t\x7d",
   "",
   "\t\t.file-upload input[type=\"file\"] \x7b",
   "\t\t\tmargin: 0;",
   "\t\t\tpadding: 3px 0;",
   "\t\t\tfont-size: 1em;",
   "\t\t\t/* Remove outline/extra vertical space browsers add */",
   "\t\t\tvertical-align: middle;",
   "\t\t\x7d",
   "\t\t",
   "\t\t",
   "",
   "        button \x7bbackground:#a950e6; border:none; color:#fff; border-radius:5px;",
   "                padding:9px 16px; font-size:15px; cursor:pointer; box-shadow:0 2px 7px -3px #bb76c1;\x7d",
   "        button:hover \x7bbackground:#7634a2;\x7d",
   "        button:disabled \x7bbackground:#ccc; cursor:not-allowed;\x7d",
   "        input[type=\"file\"] \x7bmargin-bottom:10px;\x7d",
   "        textarea \x7bwidth:100%; flex:1 1 auto; min-height:30px; max-height:60vh; font-family:'Fira Mono', monospace;",
   "                  font-size:15px; border:2px solid #bdb0da; background:#f6eafe;",
   "                  border-radius:7px; color:#432d67; resize:vertical; transition:height .2s; margin-left:auto;margin-right:auto;\x7d",
   "        select \x7bpadding:6px 10px; border-radius:5px; border:1px solid #b993d6;",
   "                background:#eee0f6; color:#6d378d; font-size:15px;\x7d",
   "        #output_block \x7bbackground:#16151a !important; color:white !important; border-radius:8px; padding:1em;",
   "                       margin-top:10px; overflow-y:auto; resize:vertical; white-space:pre-wrap;",
   "                       border:2px solid #bdb0da; flex:1 1 auto; min-height:0;\x7d",
   "        @media (max-width:800px) \x7b.container \x7bflex-direction:column; height:auto;\x7d",
   "                                  .panel \x7bheight:auto; min-width:0;\x7d\x7d",
   ".output-header \x7b",
   "  margin-top: 8px;",
   "  display: flex;",
   "  justify-content: space-between; /* Push left and right sections apart */",
   "  align-items: center;           /* Vertically align */",
   "\x7d",
   "",
   ".syntax-select \x7b",
   "  display: flex;",
   "  align-items: center;",
   "  gap: 6px; /* Space between label and dropdown */",
   "\x7d",
   "",
   "    </style>",
   "    <link href=\"https://cdn.jsdelivr.net/npm/prismjs@1/themes/prism-tomorrow.min.css\"",
   "          rel=\"stylesheet\"",
   "          integrity=\"sha384-wFjoQjtV1y5jVHbt0p35Ui8aV8GVpEZkyF99OXWqP/eNJDU93D3Ugxkoyh6Y2I4A\"",
   "          crossorigin=\"anonymous\" />",
   "    <script src=\"https://cdn.jsdelivr.net/npm/prismjs@1/prism.min.js\"",
   "            integrity=\"sha384-guvyurEPUUeAKyomgXWf/3v1dYx+etnMZ0CeHWsUXSqT1sRwh4iLpr9Z+Lw631fX\"",
   "            crossorigin=\"anonymous\"></script>",
   "    <script src=\"https://cdn.jsdelivr.net/npm/prismjs@1/components/prism-markup.min.js\"",
   "            integrity=\"sha384-HkMr0bZB9kBW4iVtXn6nd35kO/L/dQtkkUBkL9swzTEDMdIe5ExJChVDSnC79aNA\"",
   "            crossorigin=\"anonymous\"></script>",
   "    <script src=\"https://cdn.jsdelivr.net/npm/prismjs@1/components/prism-perl.min.js\"",
   "            integrity=\"sha384-TBezSCOvSMb3onoz0oj0Yi0trDW0ZQIz7CaneDU5q4gsUSqaPKMD6DlepFFJj+qa\"",
   "            crossorigin=\"anonymous\"></script>",
   "</head>",
   "<body>",
   "    <header>",
   "\t\t <h1>",
   "\t\t\tMojolicious Template Code Formatter",
   "\t\t\t<span class=\"version-label\">v"]

/-- The rows of the page from the version on. -/
def pageEnd : List String :=
  ["</span>",
   "\t\t</h1>",
   "\t\t<div class=\"icon-links\">",
   "\t\t\t<a href=\"https://github.com/brianread108/mojofmt\" target=\"_blank\" aria-label=\"GitHub\">",
   "\t\t\t  <svg viewBox=\"0 0 16 16\" role=\"img\" aria-hidden=\"true\" width=\"28\" height=\"28\" fill=\"white\" xmlns=\"http://www.w3.org/2000/svg\">",
   "\t\t\t\t<path fill-rule=\"evenodd\"",
   "\t\t\t\t  d=\"M8 0C3.58 0 0 3.58 0 8a8.003 8.003 0 0 0 5.47 7.59c.4.07.55-.17.55-.38",
   "\t\t\t\t\t0-.19-.01-.82-.01-1.49-2.01.37-2.53-.49-2.69-.94",
   "\t\t\t\t\t-.09-.23-.48-.94-.82-1.13-.28-.15-.68-.52-.01-.53",
   "\t\t\t\t\t.63-.01 1.08.58 1.23.82.72 1.21 ",
   "\t\t\t\t\t1.87.87 2.33.66.07-.52.28-.87.51-1.07",
   "\t\t\t\t\t-1.78-.2-3.64-.89-3.64-3.95 ",
   "\t\t\t\t\t0-.87.31-1.59.82-2.15-.08-.2-.36-1.02.08-2.12 ",
   "\t\t\t\t\t0 0 .67-.21 2.2.82a7.5 7.5 0 0 1 ",
   "\t\t\t\t\t4.01 0c1.53-1.04 2.2-.82 2.2-.82",
   "\t\t\t\t\t.44 1.1.16 1.92.08 2.12.51.56.82 ",
   "\t\t\t\t\t1.27.82 2.15 0 3.07-1.87 3.75-3.65 ",
   "\t\t\t\t\t3.95.29.25.54.73.54 1.48 ",
   "\t\t\t\t\t0 1.07-.01 1.93-.01 2.2 ",
   "\t\t\t\t\t0 .21.15.46.55.38A8.003 8.003 0 0 0 ",
   "\t\t\t\t\t16 8c0-4.42-3.58-8-8-8z\"/>",
   "\t\t\t  </svg>",
   "\t\t\t</a>",
   "\t\t\t<a href=\"https://mojolicious.org\" target=\"_blank\" aria-label=\"Mojolicious Website\">",
   "\t\t\t  <svg viewBox=\"0 0 64 64\" width=\"28\" height=\"28\" role=\"img\" aria-hidden=\"false\" fill=\"white\" xmlns=\"http://www.w3.org/2000/svg\">",
   "\t\t\t\t<path d=\"M32 2C20 18 20 30 20 40a12 12 0 0 0 24 0c0-14-12-24-12-38zM32 56a16 16 0 0 1-16-16c0-12 16-20 16-38 8 16 16 24 16 38a16 16 0 0 1-16 16z\"/>",
   "\t\t\t  </svg>",
   "\t\t\t</a>",
   "\t\t</div>",
   "    </header>",
   "    <div class=\"flash-messages\" id=\"flash-messages\">",
   "    </div>",
   "    <form id=\"mainform\" onsubmit=\"return false;\">",
   "      <div class=\"container\">",
   "        <div class=\"panel\">",
   "          <label for=\"input_text\">Input data:</label>",
   "          <textarea name=\"input_text\" id=\"input_text\"></textarea>",
   "\t\t\t<div class=\"file-upload\">",
   "\t\t\t\t<label for=\"input_file\">Upload a file:</label>",
   "\t\t\t\t<input type=\"file\" name=\"input_file\" id=\"input_file\" accept=\".ep\">",
   "\t\t\t</div>",
   "\t\t\t<div class=\"controls\">",
   "\t\t\t\t<div class=\"controls-left\">",
   "\t\t\t\t\t<button type=\"button\" id=\"format_btn\">Format</button>",
   "\t\t\t\t</div>",
   "\t\t\t\t<div class=\"controls-right\">",
   "\t\t\t\t\t<button type=\"button\" id=\"download_btn\">Download</button>",
   "\t\t\t\t\t<button type=\"button\" id=\"clear_btn\">Clear</button>",
   "\t\t\t\t</div>",
   "\t\t\t</div>",
   "          <label style=\"margin-top:12px;\">",
   "            <input type=\"checkbox\" name=\"remove_empty\" id=\"remove_empty\">",
   "            Remove empty lines from output",
   "          </label>",
   "        </div>",
   "        <div class=\"panel\">",
   "<div class=\"output-header\">",
   "  <label>Formatted Output:</label>",
   "  <div class=\"syntax-select\">",
   "    <label for=\"syntaxmode\">Output Syntax:</label>",
   "    <select id=\"syntaxmode\" name=\"syntaxmode\">",
   "      <option value=\"none\">Plain Text</option>",
   "      <option value=\"perl\">Perl</option>",
   "      <option value=\"html\">HTML</option>",
   "    </select>",
   "  </div>",
   "</div>",
   "            <pre id=\"output_block\"><code id=\"output_code\" class=\"language-none\"></code></pre>",
   "        </div>",
   "      </div>",
   "    </form>",
   "    <script>",
   "    document.addEventListener(\"DOMContentLoaded\", function() \x7b",
   "        const inputTextEl = document.getElementById(\"input_text\");",
   "        const inputFileEl = document.getElementById(\"input_file\");",
   "        const outputCodeEl = document.getElementById(\"output_code\");",
   "        const clearBtnEl = document.getElementById(\"clear_btn\");",
   "        const formatBtn = document.getElementById(\"format_btn\");",
   "        const downloadBtn = document.getElementById(\"download_btn\");",
   "        const syntaxModeEl = document.getElementById(\"syntaxmode\");",
   "        const removeEmptyEl = document.getElementById(\"remove_empty\");",
   "        const flashMessagesEl = document.getElementById(\"flash-messages\");",
   "        const mainForm = document.getElementById(\"mainform\");",
   "        ",
   "        let currentFormattedText = '';",
   "        let uploadedFilename = '';",
   "",
   "        // Prevent form submission completely",
   "        mainForm.addEventListener(\"submit\", function(e) \x7b",
   "            e.preventDefault();",
   "            return false;",
   "        \x7d);",
   "",
   "        // Flash message functions",
   "        function showFlashMessage(message, isError = true) \x7b",
   "            flashMessagesEl.innerHTML = `<ul><li style=\"color: $\x7bisError ? '#d91454' : '#28a745'\x7d\">$\x7bmessage\x7d</li></ul>`;",
   "            setTimeout(() => \x7b",
   "                flashMessagesEl.innerHTML = '';",
   "            \x7d, 5000);",
   "        \x7d",
   "",
   "        // Update file input display",
   "        function updateFileInputDisplay() \x7b",
   "            const fileInput = inputFileEl;",
   "            const label = fileInput.parentElement;",
   "            const displaySpan = label.querySelector('.filename-display') || document.createElement('span');",
   "            displaySpan.className = 'filename-display';",
   "            displaySpan.style.marginLeft = '10px';",
   "            displaySpan.style.fontWeight = 'normal';",
   "            displaySpan.style.color = '#666';",
   "            ",
   "            if (uploadedFilename) \x7b",
   "                displaySpan.textContent = `($\x7buploadedFilename\x7d)`;",
   "            \x7d else \x7b",
   "                displaySpan.textContent = '(none)';",
   "            \x7d",
   "            ",
   "            if (!label.querySelector('.filename-display')) \x7b",
   "                label.appendChild(displaySpan);",
   "            \x7d",
   "        \x7d",
   "",
   "        // Initialize filename display",
   "        updateFileInputDisplay();",
   "",
   "        // Resize textarea",
   "        function autoResizeTextarea() \x7b",
   "            inputTextEl.style.height = \"auto\";",
   "            let max = Math.max(60, Math.round(window.innerHeight*0.6));",
   "            inputTextEl.style.height = Math.min(inputTextEl.scrollHeight, max) + \"px\";",
   "        \x7d",
   "        ",
   "        inputTextEl.addEventListener(\"input\", function() \x7b",
   "            clearOutput();",
   "            autoResizeTextarea();",
   "        \x7d);",
   "",
   "        clearBtnEl.addEventListener(\"click\", function() \x7b",
   "            inputTextEl.value = '';",
   "            inputFileEl.value = '';",
   "            uploadedFilename = '';",
   "            updateFileInputDisplay();",
   "            autoResizeTextarea();",
   "            clearOutput();",
   "        \x7d);",
   "",
   "        inputFileEl.addEventListener(\"change\", function(event) \x7b",
   "            const file = event.target.files[0];",
   "            if (!file) \x7b",
   "                uploadedFilename = '';",
   "                updateFileInputDisplay();",
   "                return;",
   "            \x7d",
   "            ",
   "            uploadedFilename = file.name;",
   "            updateFileInputDisplay();",
   "            ",
   "            const reader = new FileReader();",
   "            reader.onload = function(e) \x7b",
   "                inputTextEl.value = e.target.result;",
   "                autoResizeTextarea();",
   "                clearOutput();",
   "            \x7d;",
   "            reader.readAsText(file);",
   "        \x7d);",
   "",
   "        syntaxModeEl.addEventListener(\"change\", highlightOutput);",
   "",
   "        function clearOutput() \x7b",
   "            outputCodeEl.textContent = '';",
   "            currentFormattedText = '';",
   "            Prism.highlightElement(outputCodeEl);",
   "        \x7d",
   "        ",
   "        function highlightOutput() \x7b",
   "            outputCodeEl.className = \"\";",
   "            if (syntaxModeEl.value === \"perl\") outputCodeEl.classList.add(\"language-perl\");",
   "            else if (syntaxModeEl.value === \"html\") outputCodeEl.classList.add(\"language-markup\");",
   "            else outputCodeEl.classList.add(\"language-none\");",
   "            Prism.highlightElement(outputCodeEl);",
   "        \x7d",
   "",
   "        // Generate download filename",
   "        function getDownloadFilename() \x7b",
   "            if (uploadedFilename) \x7b",
   "                const lastDotIndex = uploadedFilename.lastIndexOf('.');",
   "                if (lastDotIndex > 0) \x7b",
   "                    const name = uploadedFilename.substring(0, lastDotIndex);",
   "                    const ext = uploadedFilename.substring(lastDotIndex);",
   "                    return `$\x7bname\x7d_fmt$\x7bext\x7d`;",
   "                \x7d else \x7b",
   "                    return `$\x7buploadedFilename\x7d_fmt.txt`;",
   "                \x7d",
   "            \x7d else \x7b",
   "                return 'formatted_fmt.txt';",
   "            \x7d",
   "        \x7d",
   "",
   "        // Format button AJAX handler",
   "        formatBtn.addEventListener(\"click\", function() \x7b",
   "            const inputText = inputTextEl.value.trim();",
   "            if (!inputText) \x7b",
   "                showFlashMessage(\"No input data provided.\");",
   "                return;",
   "            \x7d",
   "",
   "            // Show formatting state",
   "            const originalText = formatBtn.textContent;",
   "            formatBtn.textContent = \"Formatting...\";",
   "            formatBtn.disabled = true;",
   "",
   "            // Prepare data",
   "            const formData = \x7b",
   "                input_text: inputText,",
   "                remove_empty: removeEmptyEl.checked",
   "            \x7d;",
   "",
   "            // Make AJAX request",
   "            fetch('/api/format_ajax', \x7b",
   "                method: 'POST',",
   "                headers: \x7b",
   "                    'Content-Type': 'application/json',",
   "                \x7d,",
   "                body: JSON.stringify(formData)",
   "            \x7d)",
   "            .then(response => response.json())",
   "            .then(data => \x7b",
   "                if (data.error) \x7b",
   "                    showFlashMessage(data.error);",
   "                \x7d else \x7b",
   "                    currentFormattedText = data.formatted_text;",
   "                    outputCodeEl.textContent = currentFormattedText;",
   "                    highlightOutput();",
   "                \x7d",
   "            \x7d)",
   "            .catch(error => \x7b",
   "                showFlashMessage(\"Error formatting text: \" + error.message);",
   "            \x7d)",
   "            .finally(() => \x7b",
   "                formatBtn.textContent = originalText;",
   "                formatBtn.disabled = false;",
   "            \x7d);",
   "        \x7d);",
   "",
   "        // Download button AJAX handler",
   "        downloadBtn.addEventListener(\"click\", function() \x7b",
   "            if (!currentFormattedText) \x7b",
   "                showFlashMessage(\"No formatted text to download. Please format first.\");",
   "                return;",
   "            \x7d",
   "",
   "            // Create and trigger download with proper filename",
   "            const blob = new Blob([currentFormattedText], \x7b type: 'text/plain' \x7d);",
   "            const url = window.URL.createObjectURL(blob);",
   "            const a = document.createElement('a');",
   "            a.href = url;",
   "            a.download = getDownloadFilename();",
   "            document.body.appendChild(a);",
   "            a.click();",
   "            document.body.removeChild(a);",
   "            window.URL.revokeObjectURL(url);",
   "        \x7d);",
   "",
   "        highlightOutput();",
   "    \x7d);",
   "    </script>",
   "</body>",
   "</html>"]

/-- The page, with the version of the formatter. -/
def page (version : Text) : Text :=
  Text.join ['\n'] (pageStart.map txt) ++ markupText version ++ Text.join ['\n'] (pageEnd.map txt)

end EpFormat.Service
