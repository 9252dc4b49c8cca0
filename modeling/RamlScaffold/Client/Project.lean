import RamlScaffold.Client.Basic

/-!
The files around a client package.
-/

namespace RamlScaffold.Client

open Source

def setupScript (c : Context) : Source :=
  ["from setuptools import find_packages, setup",
   "",
   "setup(",
   ["    name=", .literal c.distribution, ","],
   ["    version=", .literal c.packageVersion, ","],
   ["    description=", .literal c.summary, ","],
   "    packages=find_packages(exclude=['tests', 'tests.*', 'examples']),",
   "    install_requires=['requests>=2.28.0'],",
   "    python_requires='>=3.8',",
   ")"]

/-- The packages that a client needs; for development also the test tools. -/
def requirements (dev : Bool) : Source :=
  .join [
    ["requests>=2.28.0"],
    when dev
      ["pytest>=7.0.0",
       "pytest-cov>=4.0.0",
       "pytest-mock>=3.10.0",
       "responses>=0.23.0"]]

def ignored : Source :=
  ["__pycache__/",
   "*.py[cod]",
   "*.egg-info/",
   "build/",
   "dist/",
   ".eggs/",
   ".pytest_cache/",
   ".coverage",
   "htmlcov/",
   ".venv/",
   "venv/",
   ".env",
   ".DS_Store"]

def readme (c : Context) : Source :=
  .join [
    [["# ", c.spec.title, " client"],
     "",
     ["Python client for ", c.spec.title, " (package `", c.package, "`, version ", c.packageVersion,
      ")."]],
    when (c.spec.description != "")
      ["",
       [c.spec.description]],
    ["",
     "## Install",
     "",
     "```bash",
     "pip install -e .",
     "```",
     "",
     "## Usage",
     "",
     "```python",
     ["from ", c.package, " import ", c.className],
     "",
     ["client = ", c.className, "(base_url=", .literal c.baseUrl,
      textIf c.settings.includeAuth ", token='...'", ")"],
     "```",
     "",
     "## Resources",
     ""],
    each c.groups fun g =>
      .join [
        [["### `client.", g.name.camel, "`"],
         ""],
        each g.endpoints fun e =>
          each e.operations fun op =>
            [["- `", op.name, "()`: `", op.verb.upper, " ", e.uri, "`"]],
        [""]],
    when c.settings.generateTests
      ["## Tests",
       "",
       "```bash",
       "pip install -r requirements-dev.txt",
       "pytest",
       "```"]]

def usageExample (c : Context) : Source :=
  .join [
    [[.docstring "\nExample usage of the " c.spec.title " client\n"],
     ["from ", c.package, " import ", c.className],
     ["from ", c.package, ".exceptions import APIError"],
     "",
     "",
     "def main():",
     ["    client = ", c.className, "(", textIf c.settings.includeAuth "token='your-token'", ")"],
     "    print('Connected to', client._base.base_url)",
     "    try:"],
    each c.examples fun call =>
      [["        print(client.", call.accessor, ".", call.operation, "(", call.args, "))"]],
    ["        client.close()",
     "    except APIError as error:",
     "        print(f'Request failed: \x7berror\x7d')",
     "",
     "",
     "if __name__ == '__main__':",
     "    main()"]]

end RamlScaffold.Client
