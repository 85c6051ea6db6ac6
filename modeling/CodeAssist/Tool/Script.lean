namespace CodeAssist.Script

def ofLines (lines : List String) : String := String.join (lines.map (· ++ "\n"))

/-- Keeps a project module from being imported in place of another of its name. It goes before every
script. -/
def preamble : String := ofLines [
  "import os as _os",
  "import sys as _sys",
  "",
  "# A project module named like a tool or a stdlib module must not win the import.",
  "if _sys.path and _sys.path[0] in (\"\", _os.getcwd()):",
  "    del _sys.path[0]",
  "del _os, _sys"]

def probe : String := ofLines [
  "import importlib.util",
  "import json",
  "import sys",
  "",
  "found = \x7b\x7d",
  "for name in sys.argv[1:]:",
  "    try:",
  "        found[name] = importlib.util.find_spec(name) is not None",
  "    except (ImportError, ValueError):",
  "        found[name] = False",
  "",
  "sys.stdout.write(json.dumps(\x7b\"version\": list(sys.version_info[:3]), " ++
    "\"modules\": found\x7d))"]

def complete : String := ofLines [
  "import json",
  "import sys",
  "",
  "import jedi",
  "",
  "request = json.loads(sys.stdin.buffer.read().decode(\"utf-8\"))",
  "project = jedi.Project(request[\"root\"]) if request.get(\"root\") else None",
  "script = jedi.Script(request[\"source\"], path=request.get(\"path\") or None, project=project)",
  "",
  "items = []",
  "for completion in script.complete(request[\"line\"], request[\"column\"]):",
  "    signature = None",
  "    if completion.type in (\"class\", \"function\"):",
  "        try:",
  "            signatures = completion.get_signatures()",
  "            if signatures:",
  "                signature = signatures[0].to_string()",
  "        except Exception:",
  "            signature = None",
  "    items.append(\x7b\"label\": completion.name, \"kind\": completion.type, " ++
    "\"signature\": signature\x7d)",
  "",
  "sys.stdout.write(json.dumps(items))"]

def hover : String := ofLines [
  "import json",
  "import sys",
  "",
  "import jedi",
  "",
  "request = json.loads(sys.stdin.buffer.read().decode(\"utf-8\"))",
  "project = jedi.Project(request[\"root\"]) if request.get(\"root\") else None",
  "script = jedi.Script(request[\"source\"], path=request.get(\"path\") or None, project=project)",
  "",
  "result = None",
  "for name in script.help(request[\"line\"], request[\"column\"]):",
  "    try:",
  "        signature = None",
  "        if name.type in (\"class\", \"function\"):",
  "            signatures = name.get_signatures()",
  "            if signatures:",
  "                signature = signatures[0].to_string()",
  "        docstring = name.docstring(raw=True)",
  "        definition = None",
  "        if name.line is not None:",
  "            definition = \x7b",
  "                \"path\": str(name.module_path) if name.module_path else None,",
  "                \"line\": name.line,",
  "                \"column\": name.column + 1,",
  "            \x7d",
  "    except Exception:",
  "        continue",
  "    if not docstring and signature is None and definition is None:",
  "        continue",
  "    result = \x7b",
  "        \"name\": name.name,",
  "        \"kind\": name.type,",
  "        \"signature\": signature,",
  "        \"docstring\": docstring,",
  "        \"definition\": definition,",
  "    \x7d",
  "    break",
  "",
  "sys.stdout.write(json.dumps(result))"]

def lint : String := ofLines [
  "import json",
  "import sys",
  "",
  "from pyflakes import api",
  "",
  "",
  "class Collector:",
  "    def __init__(self):",
  "        self.items = []",
  "",
  "    def unexpectedError(self, filename, msg):",
  "        self.items.append(",
  "            \x7b\"line\": 1, \"column\": 1, \"severity\": \"error\", " ++
    "\"message\": str(msg), \"code\": None\x7d",
  "        )",
  "",
  "    def syntaxError(self, filename, msg, lineno, offset, text):",
  "        self.items.append(",
  "            \x7b",
  "                \"line\": max(lineno or 1, 1),",
  "                \"column\": max(offset or 1, 1),",
  "                \"severity\": \"error\",",
  "                \"message\": msg,",
  "                \"code\": \"SyntaxError\",",
  "            \x7d",
  "        )",
  "",
  "    def flake(self, message):",
  "        self.items.append(",
  "            \x7b",
  "                \"line\": message.lineno,",
  "                \"column\": message.col + 1,",
  "                \"severity\": \"warning\",",
  "                \"message\": message.message % message.message_args,",
  "                \"code\": type(message).__name__,",
  "            \x7d",
  "        )",
  "",
  "",
  "request = json.loads(sys.stdin.buffer.read().decode(\"utf-8\"))",
  "collector = Collector()",
  "api.check(request[\"source\"], request.get(\"path\") or \"<buffer>\", collector)",
  "sys.stdout.write(json.dumps(collector.items))"]

def format : String := ofLines [
  "import runpy",
  "",
  "runpy.run_module(\"black\", run_name=\"__main__\", alter_sys=True)"]

def program (script : String) : String := preamble ++ "\n" ++ script

end CodeAssist.Script
